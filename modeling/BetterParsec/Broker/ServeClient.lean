import BetterParsec.Broker.BatchCodec
import BetterParsec.Driver.RingIntegrity

set_option autoImplicit false
set_option linter.all false

/-!
# The broker between the driver and its client

`run_broker` and `serve_client` of `input-broker/src/main.rs` over the keyboard filter. The broker
alone has the control device open and makes one request after the other; the keyboard callback
runs in between.
-/

namespace BetterParsec

namespace ServeClient

open LittleEndian (bytes)

inductive MessageKind where
  | arm
  | disarm
  | events
  | status
  deriving DecidableEq

def leaseMs : UInt32 := 500

def client : UInt64 := 1

-- What follows when the driver has been disarmed, or could not be.
inductive Afterwards where
  | reply
  -- `serve_client` returns an error.
  | fail
  -- `serve_client` has returned.
  | accept
  deriving DecidableEq

inductive Stage where
  | waiting
  -- At the head of the loop of `serve_client`.
  | polling
  -- Behind the control messages.
  | refreshing
  | reading
  | disarming (afterwards : Afterwards)
  deriving DecidableEq

structure Machine where
  driver : KbdFilter.System
  stage : Stage
  state : CaptureState
  -- The field of `Device`.
  nonce : UInt64

def Machine.start : Machine := ⟨.zero, .waiting, .default, 0⟩

-- The times are those of the driver. `written` is whether the pipe takes what is written.
inductive Action where
  | keyboard (action : KbdFilter.Action)
  | connected (verified : Bool)
  | stop
  -- An error of the pipe or the device, another console session, a message that is none.
  | fail
  | message (kind : MessageKind) (payload : List UInt8) (draws : List UInt64) (now : UInt64)
      (written : Bool)
  | noMessage
  | refresh (due : Bool) (now : UInt64)
  | read (written : Bool)
  | disarm
  | disarmSection
  | unfence (written : Bool)
  -- The deadline of `Device::disarm`, or an error other than BUSY.
  | giveUp

inductive Entry where
  | driver (entry : KbdFilter.Entry)
  | wrote (kind : MessageKind) (payload : List UInt8)
  | undecodable (error : ProtocolError)
  | observed (batch : BrokerBatch) (result : CaptureResult)
  | unencodable (error : ProtocolError)
  | served (ok : Bool)

def keyboardAction : KbdFilter.Action → Bool
  | .serviceCallback _ | .iterate _ | .answer _ | .leave => true
  | _ => false

-- The random numbers up to the first that is not zero.
def beginCapture (draws : List UInt64) : Option UInt64 := draws.find? (· != 0)

def armRequest (nonce : UInt64) : KbdFilter.ArmRequest :=
  ⟨KbdFilter.bpKbdProtocolVersion, leaseMs, nonce⟩

-- Whether the request is completed without an error.
def succeeds (driver : KbdFilter.System) (nonce now : UInt64) : Bool :=
  match (KbdFilter.armRequest driver.capture (armRequest nonce) now).2 with
  | .success _ => true
  | _ => false

def request (m : Machine) (action : KbdFilter.Action) : Machine × List Entry :=
  let next := KbdFilter.step m.driver action
  ({ m with driver := next.1 }, next.2.map .driver)

def returned (m : Machine) (ok : Bool) : Machine × List Entry :=
  ({ m with stage := .disarming .accept }, [.served ok])

def write (m : Machine) (written : Bool) (kind : MessageKind) (payload : List UInt8)
    (next : Stage) : Machine × List Entry :=
  if written then ({ m with stage := next }, [.wrote kind payload]) else returned m false

def armed (m : Machine) (nonce now : UInt64) (written : Bool) : Machine × List Entry :=
  if succeeds m.driver nonce now then
    Runs.andThen (request { m with nonce := nonce } (.arm (armRequest nonce) now)) fun m =>
      match m.state.arm client nonce with
      | (state, .ok ()) => write { m with state := state } written .status [1] .refreshing
      | (state, .error _) => ({ m with state := state, stage := .disarming .fail }, [])
  else
    Runs.andThen (request { m with nonce := nonce } (.arm (armRequest nonce) now)) fun m =>
      returned m false

def message (m : Machine) (draws : List UInt64) (now : UInt64) (written : Bool) :
    MessageKind → List UInt8 → Machine × List Entry
  | .arm, [] =>
    match beginCapture draws with
    | none => returned m false
    | some nonce => armed m nonce now written
  | .disarm, [] =>
    match m.state.disarm client with
    | (state, .ok ()) => ({ m with state := state, stage := .disarming .reply }, [])
    | (state, .error _) => returned { m with state := state } false
  | _, _ => returned m false

def refreshed (m : Machine) (due : Bool) (now : UInt64) : Machine × List Entry :=
  if !m.state.isArmed then ({ m with stage := .polling }, [])
  else if !due then ({ m with stage := .reading }, [])
  else if succeeds m.driver m.nonce now then
    request { m with stage := .reading } (.arm (armRequest m.nonce) now)
  else
    request { m with state := m.state.failClosed, stage := .disarming .fail }
      (.arm (armRequest m.nonce) now)

def eventBytes (event : KbdFilter.BpKbdEventV1) : List UInt8 :=
  bytes 2 event.version.toNat ++ bytes 2 event.kind.toNat ++ bytes 4 event.sequence.toNat ++
    bytes 8 event.nonce.toNat ++ bytes 2 event.makeCode.toNat ++ bytes 2 event.flags.toNat ++
    bytes 4 event.extraInformation.toNat ++ bytes 8 event.interruptTime100ns.toNat

-- What READ_EVENTS leaves in the buffer: the header and the events.
def outputBytes (output : KbdFilter.ReadEvents) : List UInt8 :=
  bytes 4 output.events.length ++ bytes 4 output.dropped ++ output.events.flatMap eventBytes

-- The events that the buffer of `read_batch` has room for.
def capacity : Nat := (BatchCodec.maxPayload - 8) / 32

def handOn (m : Machine) (batch : BrokerBatch) (written : Bool) : Machine × List Entry :=
  if batch.events = [] ∧ batch.dropped = 0 then ({ m with stage := .polling }, [])
  else
    match m.state.observeBatch client batch with
    | (state, .error error) =>
      let next := returned { m with state := state } false
      (next.1, .observed batch (.error error) :: next.2)
    | (state, .ok ()) =>
      match BatchCodec.encodeBatch batch with
      | .error error =>
        let next := returned { m with state := state } false
        (next.1, .observed batch (.ok ()) :: .unencodable error :: next.2)
      | .ok payload =>
        let next := write { m with state := state } written .events payload .polling
        (next.1, .observed batch (.ok ()) :: next.2)

def readBatch (m : Machine) (written : Bool) : Machine × List Entry :=
  let output := (KbdFilter.readEventsLocked m.driver.capture (m.driver.gCallbackBusy != 0)
    capacity).2
  Runs.andThen (request m (.readEvents capacity)) fun m =>
    match BatchCodec.decodeBatch (outputBytes output) with
    | .error error =>
      let next := returned m false
      (next.1, .undecodable error :: next.2)
    | .ok batch => handOn m batch written

-- Behind `Device::disarm`.
def disarmed (m : Machine) (ok written : Bool) : Afterwards → Machine × List Entry
  | .reply => if ok then write m written .status [0] .refreshing else returned m false
  | .fail => returned m false
  | .accept => ({ m with stage := .waiting }, [])

def step (m : Machine) : Action → Machine × List Entry
  | .keyboard action => if keyboardAction action then request m action else (m, [])
  | .connected verified =>
    if m.stage ≠ .waiting then (m, [])
    else if verified then
      ({ m with state := (CaptureState.default.connect client).1, stage := .polling }, [])
    else ({ m with stage := .disarming .accept }, [])
  | .stop =>
    if m.stage ≠ .polling then (m, [])
    else
      match m.state.disconnect client with
      | (state, .ok ()) => returned { m with state := state } true
      | (state, .error _) => returned { m with state := state } false
  | .fail =>
    if m.stage = .polling ∨ m.stage = .reading then returned m false else (m, [])
  | .message kind payload draws now written =>
    if m.stage ≠ .polling then (m, []) else message m draws now written kind payload
  | .noMessage => if m.stage ≠ .polling then (m, []) else ({ m with stage := .refreshing }, [])
  | .refresh due now => if m.stage ≠ .refreshing then (m, []) else refreshed m due now
  | .read written => if m.stage ≠ .reading then (m, []) else readBatch m written
  | .disarm =>
    match m.stage with
    | .disarming _ => request m .disarm
    | _ => (m, [])
  | .disarmSection =>
    match m.stage with
    | .disarming _ => request m .disarmSection
    | _ => (m, [])
  | .unfence written =>
    match m.stage with
    | .disarming afterwards =>
      if m.driver.control ≠ .cleared then (m, [])
      else Runs.andThen (request m .unfence) fun m => disarmed m true written afterwards
    | _ => (m, [])
  | .giveUp =>
    match m.stage with
    | .disarming afterwards =>
      if m.driver.control ≠ .idle then (m, []) else disarmed m false false afterwards
    | _ => (m, [])

end ServeClient

end BetterParsec
