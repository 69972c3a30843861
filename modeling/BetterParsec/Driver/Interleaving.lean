import BetterParsec.Driver.KbdFilter
import BetterParsec.Library.Runs

set_option autoImplicit false
set_option linter.all false

/-!
# The keyboard callback among the control requests

`BpServiceCallback` cut at its lock sections and at its calls of the class
service, with ARM, DISARM, STATUS and READ_EVENTS between any two of them.  The
control queue is sequential; `gCallbackBusy` lets one callback run at a time and
keeps it apart from DISARM.
-/

namespace BetterParsec

namespace KbdFilter

-- A record between two sections of its iteration.  The last three fields are not in the
-- driver: whether the first section found the epoch armed, the number of that epoch, and the
-- number of the epoch whose ring the record was put into.
structure Job where
  locals : Locals
  input : KeyboardInputData
  now : UInt64
  rest : List KeyboardInputData
  found : Bool
  epoch : Nat
  stored : Option Nat

inductive Callback where
  | idle
  | scanning (batch : List KeyboardInputData)
  | replaying (job : Job)
  | serving (job : Job)
  | leaving

-- DISARM before, between and behind its changes of the gate.
inductive Control where
  | idle
  | fenced
  | cleared
  deriving DecidableEq

-- `epoch` counts the resets of the ring; the driver has no such counter.
structure System where
  capture : CaptureState
  gCallbackBusy : Nat
  callback : Callback
  inputDataConsumed : Nat
  control : Control
  epoch : Nat

def System.zero : System := ⟨.zero, 0, .idle, 0, .idle, 0⟩

inductive Action where
  | serviceCallback (batch : List KeyboardInputData)
  | iterate (now : UInt64)
  | answer (accepts : Bool)
  | leave
  | arm (request : ArmRequest) (now : UInt64)
  | disarm
  | disarmSection
  | unfence
  | status (now : UInt64)
  | readEvents (capacity : Nat)

-- What is observed of a run.
inductive Entry where
  | reset (nonce : UInt64)
  | put (event : BpKbdEventV1)
  | counted (found : Bool) (epoch : Nat) (stored : Option Nat)
  | read (output : ReadEvents)
  | status (output : BpKbdStatus)
  deriving DecidableEq

-- `++*InputDataConsumed`, and on to the next record.
def countRecord (s : System) (job : Job) : System × List Entry :=
  ({ s with callback := .scanning job.rest, inputDataConsumed := s.inputDataConsumed + 1 },
    [.counted job.found job.epoch job.stored])

-- When no pending Alt is left to be replayed.
def serveRecord (s : System) (job : Job) : System × List Entry :=
  if !job.locals.armed || !job.locals.suppressLocal || isLocalSafetyKey job.input then
    ({ s with callback := .serving job }, [])
  else countRecord s job

-- Behind the first section: the pending Alt or the record goes to the class service.
def advance (s : System) (job : Job) : System × List Entry :=
  if job.locals.replayPending then ({ s with callback := .replaying job }, [])
  else serveRecord s job

def iterate (s : System) (input : KeyboardInputData) (rest : List KeyboardInputData)
    (now : UInt64) : System × List Entry :=
  let current := expireLeaseLocked s.capture now
  let examined := examine s.capture input now
  let job : Job :=
    { locals := examined.2
      input := input
      now := now
      rest := rest
      found := current.armed
      epoch := s.epoch
      stored := if examined.2.suppressLocal then some s.epoch else none }
  let puts := if job.locals.suppressLocal then [Entry.put (nextEvent current input now)] else []
  let next := advance { s with capture := examined.1 } job
  (next.1, puts ++ next.2)

def replayed (s : System) (job : Job) (accepts : Bool) : System × List Entry :=
  if accepts then
    let locals :=
      if job.locals.armed then { job.locals with priorPending := false } else job.locals
    serveRecord { s with capture := clearPending s.capture } { job with locals := locals }
  else
    ({ s with
        capture := if job.locals.armed then restorePrior s.capture job.locals else s.capture
        callback := .leaving }, [])

def served (s : System) (job : Job) (accepts : Bool) : System × List Entry :=
  if accepts then
    if job.locals.armed && !job.locals.suppressLocal && sameEpoch s.capture job.locals then
      let next := countRecord
        { s with capture := enqueueDelivered s.capture job.locals job.input job.now }
        { job with stored := some s.epoch }
      (next.1, .put (nextEvent s.capture job.input job.now) :: next.2)
    else countRecord s job
  else
    ({ s with
        capture := if job.locals.armed then restorePrior s.capture job.locals else s.capture
        callback := .leaving }, [])

def step (s : System) : Action → System × List Entry
  | .serviceCallback batch =>
    if s.gCallbackBusy ≠ 0 then (s, [])
    else ({ s with gCallbackBusy := 1, callback := .scanning batch, inputDataConsumed := 0 }, [])
  | .iterate now =>
    match s.callback with
    | .scanning [] => ({ s with callback := .leaving }, [])
    | .scanning (input :: rest) => iterate s input rest now
    | _ => (s, [])
  | .answer accepts =>
    match s.callback with
    | .replaying job => replayed s job accepts
    | .serving job => served s job accepts
    | _ => (s, [])
  | .leave =>
    match s.callback with
    | .leaving => ({ s with gCallbackBusy := 0, callback := .idle }, [])
    | _ => (s, [])
  | .arm request now =>
    if s.control ≠ .idle then (s, [])
    else
      let armed := armRequest s.capture request now
      if armed.2 = .success true then
        ({ s with capture := armed.1, epoch := s.epoch + 1 }, [.reset request.nonce])
      else ({ s with capture := armed.1 }, [])
  | .disarm =>
    if s.control ≠ .idle ∨ s.gCallbackBusy ≠ 0 then (s, [])
    else ({ s with gCallbackBusy := 2, control := .fenced }, [])
  | .disarmSection =>
    if s.control ≠ .fenced then (s, [])
    else ({ s with capture := disarmLocked s.capture, control := .cleared }, [])
  | .unfence =>
    if s.control ≠ .cleared then (s, [])
    else ({ s with gCallbackBusy := 0, control := .idle }, [])
  | .status now =>
    if s.control ≠ .idle then (s, [])
    else
      let completed := completeStatus s.capture now
      ({ s with capture := completed.1 }, [.status completed.2])
  | .readEvents capacity =>
    if s.control ≠ .idle then (s, [])
    else
      let output := readEventsLocked s.capture (s.gCallbackBusy != 0) capacity
      ({ s with capture := output.1 }, [.read output.2])

end KbdFilter

end BetterParsec
