import BetterParsec.Fec.Encoder
import BetterParsec.Wire.ControlMessages

set_option autoImplicit false
set_option linter.all false

/-!
# FEC sender

The handle that `WebRtcVideo` holds and the task that drains its queue. An
`enqueue` call tests its flags and reads the clock before it takes the queue
lock, and the task gives up the processor at every send, so both are cut into
the pieces between which the other side can run.
-/

namespace BetterParsec

inductive WireVersion where
  | v1
  | v2
  deriving DecidableEq

def FecConfig.defaultStreaming : FecConfig :=
  { redundancyNumerator := 1
    redundancyDenominator := 8
    windowMaxSymbols := 64
    windowMaxBytes := 524288 }

def queueCapacity : Nat := 4

-- Instants and durations are in nanoseconds.
def queueResidenceMax : Nat := 100000000

def ackChannelCapacity : Nat := 16

structure FecFrame where
  data : List UInt8
  isKey : Bool
  timestampUs : UInt32
  enqueuedAt : Nat

-- `duration_since` saturates at zero, as subtraction does here.
def FecFrame.expired (frame : FecFrame) (now : Nat) : Bool :=
  now - frame.enqueuedAt ≥ queueResidenceMax

inductive AckCmd where
  | subscribe
  | ack (highestSeq : UInt32)
  | needsIdr

inductive FecSenderExit where
  | sinkClosed
  | encodeFailed
  | channelClosed
  | ackChannelClosed
  | superseded
  deriving DecidableEq

-- A queued frame with its place among all accepted frames, which the source does not keep.
structure QueuedFrame where
  number : Nat
  frame : FecFrame

-- The frame the task is working on: what is left of its chunks and of the repairs of the last
-- chunk, and whether a chunk was skipped.
structure SendingFrame where
  number : Nat
  frame : FecFrame
  frameId : UInt32
  chunks : List Payload
  repairs : List Symbol
  cut : Bool

inductive TaskPhase where
  | waiting
  | draining
  | sending (current : SendingFrame)
  | exited

structure FecSender where
  wireVersion : WireVersion
  epoch : Epoch
  ownGeneration : UInt32
  generation : UInt32
  active : Bool
  live : Bool
  needsIdr : Bool
  exit : Option FecSenderExit
  -- `push_front` and `pop_back`: the oldest frame stands first here.
  queue : List QueuedFrame
  notified : Bool
  commands : List AckCmd
  handleDropped : Bool
  -- Calls of `enqueue` that have read the clock and wait for the queue lock.
  entering : List FecFrame
  accepted : Nat
  encoder : FecEncoder
  nextSeq : UInt32
  nextFrameId : UInt32
  phase : TaskPhase

inductive SenderStep where
  | beginEnqueue (data : List UInt8) (isKey : Bool) (timestampUs : UInt32) (now : Nat)
  | commitEnqueue (index : Nat)
  | forwardControl (msg : ParsedControlMsg)
  | requestIdr
  | consumeNeedsIdr
  | bumpGeneration
  | dropHandle
  | receive
  | task (now : Nat) (delivered : Bool)

inductive SenderLog where
  | accepted (number : Nat) (isKey : Bool)
  | dropped (number : Nat)
  | wire (bytes : List UInt8)
  | chunkSent (number : Nat) (frameId : UInt32) (isKey : Bool)
  | sent (number : Nat) (frameId : UInt32) (isKey : Bool)

namespace FecSender

def spawn (ownGeneration generation : UInt32) (needsIdr : Bool) (wireVersion : WireVersion)
    (epoch : Epoch) : FecSender :=
  { wireVersion := wireVersion
    epoch := epoch
    ownGeneration := ownGeneration
    generation := generation
    active := false
    live := true
    needsIdr := needsIdr
    exit := none
    queue := []
    notified := false
    commands := []
    handleDropped := false
    entering := []
    accepted := 0
    encoder := .new .defaultStreaming
    nextSeq := 0
    nextFrameId := 0
    phase := .waiting }

def isActive (sender : FecSender) : Bool := sender.active && sender.live

def beginEnqueue (sender : FecSender) (data : List UInt8) (isKey : Bool) (timestampUs : UInt32)
    (now : Nat) : FecSender :=
  if sender.handleDropped || !sender.isActive then sender
  else if !isKey && sender.needsIdr then sender
  else if sender.wireVersion = .v2 ∧ data.length > encodedFrameMax then
    { sender with needsIdr := true }
  else { sender with entering := sender.entering ++ [⟨data, isKey, timestampUs, now⟩] }

-- `enqueue` under the queue lock. The clock was read before the lock was taken.
def enqueue (sender : FecSender) (frame : FecFrame) : FecSender × List SenderLog :=
  if !sender.isActive then (sender, [])
  else
    let now := frame.enqueuedAt
    let expired := sender.queue.filter (fun queued => queued.frame.expired now)
    let kept := sender.queue.filter (fun queued => !queued.frame.expired now)
    let latched := { sender with queue := kept, needsIdr := sender.needsIdr || !expired.isEmpty }
    let drops := expired.map (fun queued => SenderLog.dropped queued.number)
    if frame.isKey then
      -- An IDR supersedes the queue.
      ({ latched with
          queue := [⟨sender.accepted, frame⟩]
          notified := true
          accepted := sender.accepted + 1 },
        drops ++ [SenderLog.accepted sender.accepted true])
    else if kept.length ≥ queueCapacity then ({ latched with needsIdr := true }, drops)
    else
      ({ latched with
          queue := kept ++ [⟨sender.accepted, frame⟩]
          notified := true
          accepted := sender.accepted + 1 },
        drops ++ [SenderLog.accepted sender.accepted false])

def commitEnqueue (sender : FecSender) (index : Nat) : FecSender × List SenderLog :=
  match sender.entering[index]? with
  | none => (sender, [])
  | some frame => { sender with entering := sender.entering.eraseIdx index }.enqueue frame

def acceptedControl (wireVersion : WireVersion) (epoch : Epoch) :
    ParsedControlMsg → Option AckCmd
  | .v1 msg =>
      if wireVersion = .v1 then
        match msg with
        | .subscribe => some .subscribe
        | .ack seq => some (.ack seq)
        | .needsIdr => some .needsIdr
      else none
  | .v2 msg =>
      if wireVersion = .v2 then
        match msg with
        | .subscribe other => if other = epoch then some .subscribe else none
        | .ack other highestSeq => if other = epoch then some (.ack highestSeq) else none
        | .needsIdr other _ => if other = epoch then some .needsIdr else none
      else none

def forwardControl (sender : FecSender) (msg : ParsedControlMsg) : FecSender :=
  match acceptedControl sender.wireVersion sender.epoch msg with
  | none => sender
  | some cmd =>
      -- `try_send` fails on a full channel and after the handle or the task is gone.
      if sender.handleDropped || !sender.live || sender.commands.length ≥ ackChannelCapacity then
        sender
      else { sender with commands := sender.commands ++ [cmd] }

def stop (sender : FecSender) (exit : FecSenderExit) : FecSender :=
  { sender with
    active := false
    needsIdr := sender.needsIdr || exit != .superseded
    exit := some exit
    live := false
    queue := []
    phase := .exited }

def superseded (sender : FecSender) : Bool := sender.generation != sender.ownGeneration

def receive (sender : FecSender) : FecSender :=
  match sender.phase, sender.commands with
  | .waiting, .subscribe :: rest => { sender with commands := rest, active := true }
  | .waiting, .ack highestSeq :: rest =>
      { sender with commands := rest, encoder := sender.encoder.acknowledge highestSeq }
  | .waiting, .needsIdr :: rest => { sender with commands := rest, needsIdr := true }
  | .waiting, [] =>
      if !sender.handleDropped then sender
      else if sender.superseded then sender.stop .superseded
      else sender.stop .ackChannelClosed
  | .draining, _ | .sending _, _ | .exited, _ => sender

def encodeSymbol (wireVersion : WireVersion) (epoch : Epoch) (symbol : Symbol) :
    Except FecWireError (List UInt8) :=
  match wireVersion with
  | .v1 => .ok (encodeSymbolMsg symbol)
  | .v2 =>
      match symbol with
      | .source seq payload => encodeSymbolMsgV2 (.source epoch seq payload)
      | .repair repairSeq windowBase windowEnd payload =>
          encodeSymbolMsgV2 (.repair epoch repairSeq windowBase windowEnd payload)

def chunksOf (wireVersion : WireVersion) (frameId : UInt32) (frame : FecFrame) :
    Except FecWireError (List Payload) :=
  match wireVersion with
  | .v1 => .ok (chunkFrame frameId frame.isKey frame.timestampUs frame.data)
  | .v2 => chunkFrameV2 frameId frame.isKey frame.timestampUs frame.data

-- One round of the drain loop up to the loop over the chunks.
def takeFrame (sender : FecSender) (now : Nat) : FecSender × List SenderLog :=
  match sender.queue with
  | [] => ({ sender with phase := .waiting }, [])
  | queued :: rest =>
      if queued.frame.expired now then
        -- No `frame_id` is spent on a frame that expired in the queue.
        ({ sender with queue := rest, needsIdr := true }, [.dropped queued.number])
      else
        let frameId := sender.nextFrameId
        let numbered := { sender with queue := rest, nextFrameId := frameId + 1 }
        match chunksOf sender.wireVersion frameId queued.frame with
        | .error _ => ({ numbered with needsIdr := true }, [.dropped queued.number])
        | .ok chunks =>
            ({ numbered with
                phase := .sending ⟨queued.number, queued.frame, frameId, chunks, [], false⟩ }, [])

-- One round of the loop over the chunks up to the loop over the repairs.
def sendChunk (sender : FecSender) (current : SendingFrame) (chunk : Payload) (rest : List Payload)
    (now : Nat) (delivered : Bool) : FecSender × List SenderLog :=
  if current.frame.expired now then
    ({ sender with
        needsIdr := true
        phase := .sending { current with chunks := rest, cut := true } },
      if current.cut then [] else [.dropped current.number])
  else if sender.superseded then (sender.stop .superseded, [])
  else
    let pushed := sender.encoder.pushSource sender.nextSeq chunk
    let numbered := { sender with encoder := pushed.1, nextSeq := sender.nextSeq + 1 }
    match encodeSymbol sender.wireVersion sender.epoch pushed.2.source with
    | .error _ => (numbered.stop .encodeFailed, [])
    | .ok bytes =>
        if delivered then
          ({ numbered with
              phase := .sending { current with chunks := rest, repairs := pushed.2.repairs } },
            [.wire bytes, .chunkSent current.number current.frameId current.frame.isKey] ++
              -- The last chunk completes the frame, unless an earlier one was skipped.
              if rest.isEmpty && !current.cut then
                [.sent current.number current.frameId current.frame.isKey]
              else [])
        else (numbered.stop .sinkClosed, [])

def sendRepair (sender : FecSender) (current : SendingFrame) (repair : Symbol) (rest : List Symbol)
    (now : Nat) (delivered : Bool) : FecSender × List SenderLog :=
  if current.frame.expired now then
    ({ sender with needsIdr := true, phase := .sending { current with repairs := [] } }, [])
  else if sender.superseded then (sender.stop .superseded, [])
  else
    match encodeSymbol sender.wireVersion sender.epoch repair with
    | .error _ => (sender.stop .encodeFailed, [])
    | .ok bytes =>
        if delivered then
          ({ sender with phase := .sending { current with repairs := rest } }, [.wire bytes])
        else (sender.stop .channelClosed, [])

-- The next piece of the task's `queue_notify` branch; `delivered` is what `send_bytes` returns.
def task (sender : FecSender) (now : Nat) (delivered : Bool) : FecSender × List SenderLog :=
  match sender.phase with
  | .waiting =>
      if sender.notified then ({ sender with notified := false, phase := .draining }, [])
      else (sender, [])
  | .draining => sender.takeFrame now
  | .sending current =>
      match current.repairs, current.chunks with
      | repair :: rest, _ => sender.sendRepair current repair rest now delivered
      | [], chunk :: rest => sender.sendChunk current chunk rest now delivered
      | [], [] => ({ sender with phase := .draining }, [])
  | .exited => (sender, [])

def step (sender : FecSender) : SenderStep → FecSender × List SenderLog
  | .beginEnqueue data isKey timestampUs now =>
      (sender.beginEnqueue data isKey timestampUs now, [])
  | .commitEnqueue index => sender.commitEnqueue index
  | .forwardControl msg => (sender.forwardControl msg, [])
  -- The flag is shared: RTCP sets it, `send_decode_unit` takes it.
  | .requestIdr => ({ sender with needsIdr := true }, [])
  | .consumeNeedsIdr => ({ sender with needsIdr := false }, [])
  | .bumpGeneration => ({ sender with generation := sender.generation + 1 }, [])
  | .dropHandle => ({ sender with handleDropped := true, entering := [] }, [])
  | .receive => (sender.receive, [])
  | .task now delivered => sender.task now delivered

end FecSender

end BetterParsec
