import BetterParsec.Library.Runs

set_option autoImplicit false
set_option linter.all false

/-!
# Applying a bitrate on the host

`bitrate_apply.rs` and the `ApplyGate` of `abr.rs`, with the host behind them:
every request that was queued is answered once, in the order of the requests,
and an answer does not say which request it is for.
-/

namespace BetterParsec

def minApplyIntervalMs : Nat := 900

def ackTimeoutMs : Nat := 3000

structure ApplyGate where
  lastSentKbps : Nat
  lastSentMs : Nat
  hasBaseline : Bool
  deriving DecidableEq

namespace ApplyGate

def new : ApplyGate := ⟨0, 0, false⟩

def record (_ : ApplyGate) (kbps nowMs : Nat) : ApplyGate := ⟨kbps, nowMs, true⟩

def seedInitialBitrate (gate : ApplyGate) (kbps nowMs : Nat) : ApplyGate :=
  if kbps > 0 then gate.record kbps nowMs else gate

-- `|target - last|`.
def distance (gate : ApplyGate) (targetKbps : Nat) : Nat :=
  (targetKbps - gate.lastSentKbps) + (gate.lastSentKbps - targetKbps)

-- The source divides 32-bit integers as doubles and compares with 0.20 and with 0.10:
-- a quotient that is not the fraction itself differs from it by far more than the
-- rounding, so the comparisons are those of the exact fractions 1/5 and 1/10.
def emergencyDecrease (gate : ApplyGate) (targetKbps : Nat) : Bool :=
  targetKbps < gate.lastSentKbps ∧ max gate.lastSentKbps 1 ≤ 5 * gate.distance targetKbps

def withinHysteresis (gate : ApplyGate) (targetKbps : Nat) : Bool :=
  10 * gate.distance targetKbps < max gate.lastSentKbps 1

def nextCandidate (gate : ApplyGate) (targetKbps nowMs : Nat) : Option Nat :=
  if targetKbps = 0 then none
  else if !gate.hasBaseline then some targetKbps
  else if !gate.emergencyDecrease targetKbps ∧ nowMs - gate.lastSentMs < minApplyIntervalMs then
    none
  else if gate.withinHysteresis targetKbps then none
  else some targetKbps

end ApplyGate

inductive BitrateApplyOutcome where
  | sentUnacknowledged
  | unsupported (reason : String)
  | failed (error : String)
  deriving DecidableEq

inductive AckStatus where
  | dispatched
  | validationFailed
  | encoderApplied
  | encoderFailed
  | unsupportedParam
  deriving DecidableEq

inductive AckTier where
  | dispatched
  | encoderConfirmed
  deriving DecidableEq

inductive BitrateApplyStatus where
  | idle
  | sentUnacknowledged (kbps : Nat)
  | pendingAck (kbps sentAtMs : Nat)
  | applied (requestedKbps appliedKbps : Nat) (tier : AckTier)
  | applyFailed (requestedKbps : Nat) (status : AckStatus)
  | ackTimeout (kbps : Nat)
  | unsupported (requestedKbps : Nat) (reason : String)
  | failed (requestedKbps : Nat) (error : String)
  deriving DecidableEq

namespace BitrateApplyStatus

def isTerminal : BitrateApplyStatus → Bool
  | .unsupported _ _ => true
  | _ => false

def isFailed : BitrateApplyStatus → Bool
  | .failed _ _ => true
  | _ => false

-- The request a status says the host has answered.
def answered : BitrateApplyStatus → Option Nat
  | .applied requestedKbps _ _ => some requestedKbps
  | .applyFailed requestedKbps _ => some requestedKbps
  | _ => none

end BitrateApplyStatus

structure BitrateApplyMachine where
  gate : ApplyGate
  status : BitrateApplyStatus
  lastAttemptMs : Option Nat
  ackSupported : Bool
  deriving DecidableEq

namespace BitrateApplyMachine

def new (initialBitrateKbps : Nat) : BitrateApplyMachine where
  gate := ApplyGate.new.seedInitialBitrate initialBitrateKbps 0
  status := .idle
  lastAttemptMs := none
  ackSupported := false

def enableAckTracking (machine : BitrateApplyMachine) : BitrateApplyMachine :=
  { machine with ackSupported := true }

def resolve (kbps appliedKbps : Nat) : AckStatus → BitrateApplyStatus
  | .dispatched => .applied kbps appliedKbps .dispatched
  | .encoderApplied => .applied kbps appliedKbps .encoderConfirmed
  | .validationFailed => .applyFailed kbps .validationFailed
  | .encoderFailed => .applyFailed kbps .encoderFailed
  | .unsupportedParam => .applyFailed kbps .unsupportedParam

def handleAck (machine : BitrateApplyMachine) (appliedKbps : Nat) (status : AckStatus) :
    BitrateApplyMachine × Option BitrateApplyStatus :=
  match machine.status with
  | .pendingAck kbps _ =>
    let status := resolve kbps appliedKbps status
    ({ machine with status := status }, some status)
  | _ => (machine, none)

-- A failed attempt is not repeated before the normal interval.
def backsOff (machine : BitrateApplyMachine) (nowMs : Nat) : Bool :=
  machine.status.isFailed &&
    match machine.lastAttemptMs with
    | none => false
    | some last => nowMs - last < minApplyIntervalMs

-- The control call and its outcome.
def attempt (machine : BitrateApplyMachine) (candidate nowMs : Nat)
    (outcome : BitrateApplyOutcome) : BitrateApplyMachine × Option BitrateApplyStatus :=
  let machine := { machine with lastAttemptMs := some nowMs }
  match outcome with
  | .sentUnacknowledged =>
    let status := if machine.ackSupported then .pendingAck candidate nowMs
      else .sentUnacknowledged candidate
    ({ machine with gate := machine.gate.record candidate nowMs, status := status }, some status)
  | .unsupported reason =>
    let status := .unsupported candidate reason
    ({ machine with status := status }, some status)
  | .failed error =>
    let status := .failed candidate error
    ({ machine with status := status }, some status)

def pollFree (machine : BitrateApplyMachine) (targetKbps nowMs : Nat)
    (outcome : BitrateApplyOutcome) : BitrateApplyMachine × Option BitrateApplyStatus :=
  if machine.backsOff nowMs then (machine, none)
  else
    match machine.gate.nextCandidate targetKbps nowMs with
    | none => (machine, none)
    | some candidate => machine.attempt candidate nowMs outcome

def poll (machine : BitrateApplyMachine) (targetKbps nowMs : Nat)
    (outcome : BitrateApplyOutcome) : BitrateApplyMachine × Option BitrateApplyStatus :=
  if machine.status.isTerminal then (machine, none)
  else
    match machine.status with
    | .pendingAck kbps sentAtMs =>
      if nowMs - sentAtMs ≥ ackTimeoutMs then
        let status := .ackTimeout kbps
        ({ machine with status := status }, some status)
      else (machine, none)
    | _ => machine.pollFree targetKbps nowMs outcome

end BitrateApplyMachine

-- A request the host has been sent; the number tells requests of one bitrate apart.
structure BitrateRequest where
  number : Nat
  kbps : Nat
  deriving DecidableEq

structure BitrateHost where
  machine : BitrateApplyMachine
  -- The queued requests without an answer yet, the oldest first.
  unanswered : List BitrateRequest
  issued : Nat
  deriving DecidableEq

inductive BitrateStep where
  | poll (targetKbps nowMs : Nat) (outcome : BitrateApplyOutcome)
  -- The answer to the oldest request arrives.
  | ack (appliedKbps : Nat) (status : AckStatus)
  deriving DecidableEq

def BitrateStep.time : BitrateStep → Option Nat
  | .poll _ nowMs _ => some nowMs
  | .ack _ _ => none

inductive BitrateEvent where
  | queued (request : BitrateRequest)
  | answered (request : BitrateRequest) (status : BitrateApplyStatus)
  deriving DecidableEq

namespace BitrateHost

def start (initialBitrateKbps : Nat) : BitrateHost where
  machine := (BitrateApplyMachine.new initialBitrateKbps).enableAckTracking
  unanswered := []
  issued := 0

-- A request was queued when the poll comes back with one that awaits its answer.
def enqueue (host : BitrateHost) :
    BitrateApplyMachine × Option BitrateApplyStatus → BitrateHost × List BitrateEvent
  | (machine, some (.pendingAck kbps _)) =>
    let request := ⟨host.issued, kbps⟩
    ({ machine := machine
       unanswered := host.unanswered ++ [request]
       issued := host.issued + 1 }, [.queued request])
  | (machine, _) => ({ host with machine := machine }, [])

def step (host : BitrateHost) : BitrateStep → BitrateHost × List BitrateEvent
  | .poll targetKbps nowMs outcome => host.enqueue (host.machine.poll targetKbps nowMs outcome)
  | .ack appliedKbps status =>
    match host.unanswered with
    | [] => (host, [])
    | request :: later =>
      let (machine, resolved) := host.machine.handleAck appliedKbps status
      ({ host with machine := machine, unanswered := later },
        resolved.toList.map (.answered request))

end BitrateHost

section Attribution

def BitrateApplyStatus.isPending : BitrateApplyStatus → Bool
  | .pendingAck _ _ => true
  | _ => false

-- A poll now makes a control call.
def BitrateApplyMachine.offers (machine : BitrateApplyMachine) (targetKbps nowMs : Nat) : Bool :=
  !machine.status.isTerminal && !machine.status.isPending && !machine.backsOff nowMs &&
    (machine.gate.nextCandidate targetKbps nowMs).isSome

-- What a poll can do: queue a request, or nothing that awaits an answer.
theorem BitrateApplyMachine.poll_cases (machine : BitrateApplyMachine) (targetKbps nowMs : Nat)
    (outcome : BitrateApplyOutcome) :
    (∃ kbps next, outcome = .sentUnacknowledged ∧ machine.offers targetKbps nowMs ∧
      machine.poll targetKbps nowMs outcome = (next, some (.pendingAck kbps nowMs)) ∧
      next.status = .pendingAck kbps nowMs) ∨
    (∃ next result, machine.poll targetKbps nowMs outcome = (next, result) ∧
      (∀ status ∈ result, !status.isPending) ∧ (next = machine ∨ !next.status.isPending)) := by
  by_cases terminal : machine.status.isTerminal
  · exact .inr ⟨machine, none, if_pos terminal, by simp, .inl rfl⟩
  by_cases pending : machine.status.isPending
  · refine .inr ?_
    cases current : machine.status with
    | pendingAck kbps sentAtMs =>
      rw [poll, if_neg terminal, current]
      dsimp only
      split
      · exact ⟨_, _, rfl, by simp [BitrateApplyStatus.isPending], .inr rfl⟩
      · exact ⟨_, _, rfl, by simp, .inl rfl⟩
    | _ => simp [current, BitrateApplyStatus.isPending] at pending
  have free : machine.poll targetKbps nowMs outcome =
      machine.pollFree targetKbps nowMs outcome := by
    rw [poll, if_neg terminal]
    cases current : machine.status with
    | pendingAck kbps sentAtMs => simp [current, BitrateApplyStatus.isPending] at pending
    | _ => rfl
  rw [free, pollFree]
  by_cases waits : machine.backsOff nowMs
  · exact .inr ⟨machine, none, if_pos waits, by simp, .inl rfl⟩
  rw [if_neg waits]
  cases found : machine.gate.nextCandidate targetKbps nowMs with
  | none => exact .inr ⟨machine, none, rfl, by simp, .inl rfl⟩
  | some candidate =>
    have offered : machine.offers targetKbps nowMs := by
      simp [offers, terminal, pending, waits, found]
    cases outcome with
    | unsupported reason =>
      exact .inr ⟨_, _, rfl, by simp [BitrateApplyStatus.isPending], .inr rfl⟩
    | failed error => exact .inr ⟨_, _, rfl, by simp [BitrateApplyStatus.isPending], .inr rfl⟩
    | sentUnacknowledged =>
      by_cases supported : machine.ackSupported
      · refine .inl ⟨candidate, (machine.attempt candidate nowMs .sentUnacknowledged).1, rfl,
          offered, ?_, ?_⟩ <;> simp [attempt, supported]
      · refine .inr ⟨(machine.attempt candidate nowMs .sentUnacknowledged).1,
          (machine.attempt candidate nowMs .sentUnacknowledged).2, rfl, ?_, .inr ?_⟩ <;>
        simp [attempt, supported, BitrateApplyStatus.isPending]

-- The request the machine last queued: the one a pending status stands for.
def lastQueued (events : List BitrateEvent) : Option BitrateRequest :=
  (events.filterMap fun event =>
    match event with
    | .queued request => some request
    | .answered _ _ => none).getLast?

-- A status that reports an answer is produced by the answer to the request it names.
def Attributed (before : List BitrateEvent) : BitrateEvent → Prop
  | .queued _ => True
  | .answered request status =>
    lastQueued before = some request ∧ status.answered = some request.kbps

-- A request goes out only when all earlier ones have been answered.
def AnsweredFirst (_ : List BitrateEvent) (host : BitrateHost) : BitrateStep → Prop
  | .poll targetKbps nowMs outcome =>
    outcome = .sentUnacknowledged → host.machine.offers targetKbps nowMs → host.unanswered = []
  | .ack _ _ => True

@[simp] theorem lastQueued_queued (events : List BitrateEvent) (request : BitrateRequest) :
    lastQueued (events ++ [BitrateEvent.queued request]) = some request := by
  simp [lastQueued]

@[simp] theorem lastQueued_answered (events : List BitrateEvent) (request : BitrateRequest)
    (status : BitrateApplyStatus) :
    lastQueued (events ++ [BitrateEvent.answered request status]) = lastQueued events := by
  simp [lastQueued]

-- At most the last request is unanswered, and a pending status stands for it.
structure OneInFlight (seen : List BitrateEvent) (host : BitrateHost) : Prop where
  attributed : Runs.Emissions Attributed seen
  single : ∀ request ∈ host.unanswered, host.unanswered = [request]
  pending : ∀ kbps sentAtMs, host.machine.status = .pendingAck kbps sentAtMs →
    ∃ request, host.unanswered = [request] ∧ lastQueued seen = some request ∧
      request.kbps = kbps

theorem oneInFlight_start (initialBitrateKbps : Nat) :
    OneInFlight [] (BitrateHost.start initialBitrateKbps) where
  attributed := Runs.emissions_nil _
  single := fun _ member => nomatch member
  pending := fun _ _ same => nomatch same

theorem OneInFlight.poll {seen : List BitrateEvent} {host : BitrateHost}
    (h : OneInFlight seen host) (targetKbps nowMs : Nat) (outcome : BitrateApplyOutcome)
    (guarded : AnsweredFirst seen host (.poll targetKbps nowMs outcome)) :
    OneInFlight (seen ++ (host.step (.poll targetKbps nowMs outcome)).2)
      (host.step (.poll targetKbps nowMs outcome)).1 := by
  rw [BitrateHost.step]
  rcases host.machine.poll_cases targetKbps nowMs outcome with
    ⟨kbps, next, sent, offered, polled, status⟩ | ⟨next, result, polled, quiet, kept⟩
  · have none := guarded sent offered
    rw [polled, BitrateHost.enqueue]
    refine ⟨h.attributed.concat trivial, ?_, ?_⟩
    · intro request member
      simp only [none, List.nil_append, List.mem_singleton] at member ⊢
      rw [member]
    · intro other sentAtMs same
      rw [status] at same
      cases same
      exact ⟨⟨host.issued, kbps⟩, by rw [none, List.nil_append], lastQueued_queued _ _, rfl⟩
  · have silent : host.enqueue (next, result) = ({ host with machine := next }, []) := by
      cases result with
      | none => rfl
      | some status =>
        cases status with
        | pendingAck kbps sentAtMs => exact absurd (quiet _ rfl) Bool.false_ne_true
        | _ => rfl
    rw [polled, silent, List.append_nil]
    refine ⟨h.attributed, h.single, fun kbps sentAtMs same => ?_⟩
    rcases kept with rfl | other
    · exact h.pending kbps sentAtMs same
    · have same : next.status = .pendingAck kbps sentAtMs := same
      rw [same] at other
      exact absurd other Bool.false_ne_true

theorem BitrateApplyMachine.answered_resolve (kbps appliedKbps : Nat) (status : AckStatus) :
    (resolve kbps appliedKbps status).answered = some kbps := by
  cases status <;> rfl

theorem OneInFlight.ack {seen : List BitrateEvent} {host : BitrateHost}
    (h : OneInFlight seen host) (appliedKbps : Nat) (status : AckStatus) :
    OneInFlight (seen ++ (host.step (.ack appliedKbps status)).2)
      (host.step (.ack appliedKbps status)).1 := by
  rw [BitrateHost.step]
  cases waiting : host.unanswered with
  | nil => simpa using h
  | cons request later =>
    have alone : later = [] := by
      have single := h.single request (waiting ▸ List.mem_cons_self)
      rw [waiting] at single
      exact (List.cons.inj single).2
    subst alone
    dsimp only
    cases current : host.machine.status with
    | pendingAck kbps sentAtMs =>
      obtain ⟨other, only, last, same⟩ := h.pending kbps sentAtMs current
      rw [waiting] at only
      cases only
      simp only [BitrateApplyMachine.handleAck, current, Option.toList_some, List.map_cons,
        List.map_nil]
      refine ⟨h.attributed.concat ⟨last, ?_⟩, fun _ member => (nomatch member), ?_⟩
      · rw [BitrateApplyMachine.answered_resolve, same]
      · intro again sentAgain pending
        cases status <;> cases pending
    | _ =>
      -- A late answer finds nothing pending and changes nothing.
      simp only [BitrateApplyMachine.handleAck, current, Option.toList_none, List.map_nil,
        List.append_nil]
      refine ⟨h.attributed, fun _ member => (nomatch member), fun _ _ pending => ?_⟩
      rw [current] at pending
      cases pending

/-- In every run in which a request goes out only when all earlier ones have been answered, every
status that reports an answer comes from the answer to its own request. -/
theorem run_attributes_answers (initialBitrateKbps : Nat) (inputs : List BitrateStep)
    (guarded : Runs.Along BitrateHost.step AnsweredFirst []
      (BitrateHost.start initialBitrateKbps) inputs) :
    Runs.Emissions Attributed
      (Runs.run BitrateHost.step (BitrateHost.start initialBitrateKbps) inputs).2 := by
  have kept := Runs.run_invariant BitrateHost.step AnsweredFirst OneInFlight
    (fun seen host input held guarded => by
      cases input with
      | poll targetKbps nowMs outcome => exact held.poll targetKbps nowMs outcome guarded
      | ack appliedKbps status => exact held.ack appliedKbps status)
    [] (BitrateHost.start initialBitrateKbps) inputs (oneInFlight_start initialBitrateKbps) guarded
  simpa using kept.attributed

instance decidableAnsweredFirst (seen : List BitrateEvent) (host : BitrateHost)
    (input : BitrateStep) : Decidable (AnsweredFirst seen host input) :=
  match input with
  | .poll _ _ _ => inferInstanceAs (Decidable (_ → _ → _))
  | .ack _ _ => .isTrue trivial

-- The late answer comes before the next request.
theorem run_attributes_answers_late :
    Runs.Emissions Attributed (Runs.run BitrateHost.step (BitrateHost.start 0)
      [.poll 8000 1000 .sentUnacknowledged, .poll 8000 4000 .sentUnacknowledged,
        .ack 8000 .dispatched, .poll 6000 10000 .sentUnacknowledged,
        .ack 6000 .dispatched]).2 :=
  run_attributes_answers 0 _ (by decide)

-- The answer to the first request arrives when the second one is pending.
theorem run_takes_late_answer :
    ¬ ∀ (initialBitrateKbps : Nat) (inputs : List BitrateStep),
      (inputs.filterMap BitrateStep.time).Pairwise (· ≤ ·) → Runs.Emissions Attributed
        (Runs.run BitrateHost.step (BitrateHost.start initialBitrateKbps) inputs).2 := by
  intro attributed
  have run := attributed 0
    [.poll 8000 1000 .sentUnacknowledged, .poll 8000 4000 .sentUnacknowledged,
      .poll 6000 10000 .sentUnacknowledged, .ack 8000 .dispatched] (by decide)
  have answer := run [.queued ⟨0, 8000⟩, .queued ⟨1, 6000⟩]
    (.answered ⟨0, 8000⟩ (.applied 6000 8000 .dispatched)) [] (by decide)
  exact absurd answer.1 (by decide)

end Attribution

end BetterParsec
