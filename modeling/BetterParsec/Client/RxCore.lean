import BetterParsec.Client.FrameQueue
import BetterParsec.Video.Acks

set_option autoImplicit false
set_option linter.all false

/-!
# Receiver core

The core shared by the DataChannel callback and the session's tick. Each of them
calls the receiver under its lock and consumes the returned events afterwards,
without the lock, so that the two lists of events can interleave.
-/

namespace BetterParsec

inductive FecCodec where
  | v1
  | unconfigured
  | v2 (epoch : Epoch)
  deriving DecidableEq

def FecCodec.isV2 : FecCodec → Bool
  | .v2 _ => true
  | .v1 | .unconfigured => false

structure RxCore where
  rx : VideoReceiver
  fecCodec : FecCodec
  v2KeyGate : Bool
  fecConfigured : Bool
  queue : FrameQueue
  pendingAck : Option UInt32
  discontinuity : Option (UInt32 × DiscontinuityReason)
  decodeNeedsIdr : Bool
  framesDelivered : Nat
  lastAckSeen : Option UInt32
  lastFrameId : Option UInt32

namespace RxCore

def defaultFrameCap : Nat := 16

def new (nowMs : Nat) : RxCore :=
  { rx := .new nowMs
    fecCodec := .v1
    v2KeyGate := false
    fecConfigured := false
    queue := .new defaultFrameCap
    pendingAck := none
    discontinuity := none
    decodeNeedsIdr := false
    framesDelivered := 0
    lastAckSeen := none
    lastFrameId := none }

-- The queue is drained; it keeps its generation counter and stays closed if it was closed.
def beginFecNegotiation (core : RxCore) : RxCore :=
  let drained := { core.queue.state with events := [], overflowed := false, recovery := none }
  { core with
    rx := .new 0
    fecCodec := .unconfigured
    v2KeyGate := false
    fecConfigured := false
    queue := { core.queue with state := drained }
    pendingAck := none
    discontinuity := none
    decodeNeedsIdr := false }

def negotiated (version : UInt8) (epoch : Option Epoch) : Option FecCodec :=
  match epoch with
  | none => if version = 1 then some .v1 else none
  | some epoch => if version = 2 then some (.v2 epoch) else none

def configureFec (core : RxCore) (version : UInt8) (epoch : Option Epoch) : RxCore × Bool :=
  match negotiated version epoch with
  | none => (core, false)
  | some codec =>
      if core.fecConfigured then (core, false)
      else ({ core with fecConfigured := true, fecCodec := codec, v2KeyGate := codec.isV2 }, true)

def acceptsMessage (core : RxCore) (bytes : List UInt8) : Bool :=
  match core.fecCodec with
  | .unconfigured => false
  | .v1 => bytes.head? = some 0 || bytes.head? = some 1
  | .v2 epoch =>
      (bytes.head? = some 2 || bytes.head? = some 3) && bytes.length ≥ 5 &&
        u32At bytes 1 = epoch.get

-- One round of `consume_events`, with what it pushed into the queue.
def consumeEvent (core : RxCore) : RxEvent → RxCore × Option RxEvent
  | .frame unit =>
      if core.v2KeyGate && !unit.isKey then (core, none)
      else
        let opened := { core with v2KeyGate := false }
        match core.queue.pushFrameReportingOverflow unit with
        | (queue, none) => ({ opened with queue := queue }, none)
        | (queue, some _) =>
            ({ opened with
                queue := queue
                framesDelivered := core.framesDelivered + 1
                lastFrameId := some unit.frameId },
              some (.frame unit))
  | .ack seq => ({ core with pendingAck := some seq, lastAckSeen := some seq }, none)
  | .discontinuity epoch reason =>
      let latched := { core with discontinuity := some (epoch, reason) }
      match core.queue.pushDiscontinuity epoch reason with
      | (queue, none) => ({ latched with queue := queue }, none)
      | (queue, some _) => ({ latched with queue := queue }, some (.discontinuity epoch reason))

def pollAck (core : RxCore) : RxCore × Option UInt32 :=
  ({ core with pendingAck := none }, core.pendingAck)

def requestIdr (core : RxCore) : RxCore := { core with decodeNeedsIdr := true }

def pollNeedsIdr (core : RxCore) : RxCore × Bool :=
  ({ core with
      rx := core.rx.pollNeedsIdr.1
      queue := core.queue.takeOverflowed.1
      decodeNeedsIdr := false },
    core.rx.pollNeedsIdr.2 || core.queue.takeOverflowed.2 || core.decodeNeedsIdr)

def takeDiscontinuity (core : RxCore) : RxCore × Option (UInt32 × DiscontinuityReason) :=
  ({ core with discontinuity := none }, core.discontinuity)

end RxCore

inductive RxCaller where
  | dataChannel
  | session
  deriving DecidableEq

-- The core with the events that were returned and not consumed yet, oldest first, each with the
-- caller that has it.
structure RxSystem where
  core : RxCore
  outstanding : List (RxCaller × RxEvent)

inductive CoreStep where
  | configureFec (version : UInt8) (epoch : Option Epoch)
  | onMessage (bytes : List UInt8) (nowMs : Nat)
  | tick (nowMs : Nat)
  | consume (caller : RxCaller)
  | pollAck
  | pollNeedsIdr
  | requestIdr
  | takeDiscontinuity
  | tryEvent
  | acknowledgeDecodedKey (generation : UInt64) (epoch : UInt32)
  | closeQueue

inductive CoreLog where
  | returned (event : RxEvent)
  | consumed (event : RxEvent)
  | pushed (event : RxEvent)
  deriving DecidableEq

namespace RxSystem

-- The next event of the caller, with those before it and those after it.
def takeNext (caller : RxCaller) :
    List (RxCaller × RxEvent) →
      Option (List (RxCaller × RxEvent) × RxEvent × List (RxCaller × RxEvent))
  | [] => none
  | (owner, event) :: rest =>
      if owner = caller then some ([], event, rest)
      else (takeNext caller rest).map (fun found => ((owner, event) :: found.1, found.2))

-- A caller makes its next call when it has consumed the events of the last one.
def busy (system : RxSystem) (caller : RxCaller) : Bool :=
  system.outstanding.any (fun entry => entry.1 = caller)

-- The locked call; the events go to the caller.
def receive (system : RxSystem) (caller : RxCaller) (outcome : VideoReceiver × List RxEvent) :
    RxSystem × List CoreLog :=
  ({ core := { system.core with rx := outcome.1 }
     outstanding := system.outstanding ++ outcome.2.map (fun event => (caller, event)) },
    outcome.2.map .returned)

def consume (system : RxSystem) (caller : RxCaller) : RxSystem × List CoreLog :=
  match takeNext caller system.outstanding with
  | none => (system, [])
  | some (before, event, after) =>
      let (core, pushed) := system.core.consumeEvent event
      ({ core := core, outstanding := before ++ after },
        .consumed event :: pushed.toList.map .pushed)

def onCore (system : RxSystem) (core : RxCore) : RxSystem × List CoreLog :=
  ({ system with core := core }, [])

def step (system : RxSystem) : CoreStep → RxSystem × List CoreLog
  | .configureFec version epoch => system.onCore (system.core.configureFec version epoch).1
  | .onMessage bytes nowMs =>
      if system.busy .dataChannel || !system.core.acceptsMessage bytes then (system, [])
      else system.receive .dataChannel (system.core.rx.onMessage bytes nowMs)
  | .tick nowMs =>
      if system.busy .session then (system, [])
      else system.receive .session (system.core.rx.tickEvents nowMs)
  | .consume caller => system.consume caller
  | .pollAck => system.onCore system.core.pollAck.1
  | .pollNeedsIdr => system.onCore system.core.pollNeedsIdr.1
  | .requestIdr => system.onCore system.core.requestIdr
  | .takeDiscontinuity => system.onCore system.core.takeDiscontinuity.1
  | .tryEvent => system.onCore { system.core with queue := system.core.queue.tryEvent.1 }
  | .acknowledgeDecodedKey generation epoch =>
      system.onCore { system.core with
        queue := (system.core.queue.acknowledgeRecovery generation epoch).1 }
  | .closeQueue => system.onCore { system.core with queue := system.core.queue.close }

def start (core : RxCore) : RxSystem := ⟨core.beginFecNegotiation, []⟩

end RxSystem

end BetterParsec
