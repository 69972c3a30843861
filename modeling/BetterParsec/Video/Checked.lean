import BetterParsec.Library.Refinement
import BetterParsec.Video.Receiver

set_option autoImplicit false
set_option linter.all false

/-!
# The receiver with its bookkeeping

`video_rx.rs` keeps each set of frames as a hash map beside a vector of its
keys, takes byte counts off by plain subtraction and unwraps what it looked up
before. This is the receiver with all of that: an operation is `none` where an
`expect` fires, a subtraction underflows or a counter overflows.
-/

namespace BetterParsec

abbrev FrameTable (V : Type) := Finmap (fun _ : UInt32 × UInt32 => V)

structure CheckedReceiver where
  decoder : FecDecoder
  pending : FrameTable PendingFrame
  pendingOrder : List (UInt32 × UInt32)
  completed : FrameTable CompletedFrame
  completedOrder : List (UInt32 × UInt32)
  bufferedBytes : Nat
  activeEpoch : Option UInt32
  nextFrameId : Option UInt32
  needsIdr : Bool
  awaitingIdr : Bool
  lastTimestampUs : UInt32
  symbolsSinceAck : Nat
  lastAckTimeMs : Nat
  lastAckedHighest : Option UInt32
  framesRecovered : Nat
  framesDroppedAwaitingIdr : Nat

def checkedSub (left right : Nat) : Option Nat := if right ≤ left then some (left - right) else none

def checkedSucc (count : Nat) : Option Nat := if count + 1 < 2 ^ 16 then some (count + 1) else none

def Chunk.checkedFragmentLen (chunk : Chunk) : Option Nat := do
  let next ← checkedSucc chunk.chunkIndex.toNat
  if next = chunk.chunkCount.toNat then
    let before ← checkedSub chunk.chunkCount.toNat 1
    checkedSub chunk.encodedLen.toNat (chunkV2FragmentMax * before)
  else some chunkV2FragmentMax

-- `Chunk.wellFormed` with the arithmetic of the source.
def Chunk.checkedWellFormed (chunk : Chunk) (isV2 : Bool) : Option Bool :=
  if chunk.chunkCount = 0 ∨ chunk.chunkCount > v2ChunkCountMax ∨
      chunk.encodedLen.toNat > encodedFrameMax then some false
  else if !isV2 then some true
  else if chunk.chunkCount.toNat ≠ chunkCountOf chunk.encodedLen.toNat then some false
  else do
    let expected ← chunk.checkedFragmentLen
    return chunk.fragment.length = expected

namespace CheckedReceiver

def new (nowMs : Nat) : CheckedReceiver :=
  { decoder := .new rxDecoderMaxSymbols rxDecoderMaxBytes
    pending := ∅
    pendingOrder := []
    completed := ∅
    completedOrder := []
    bufferedBytes := 0
    activeEpoch := none
    nextFrameId := none
    needsIdr := false
    awaitingIdr := false
    lastTimestampUs := 0
    symbolsSinceAck := 0
    lastAckTimeMs := nowMs
    lastAckedHighest := none
    framesRecovered := 0
    framesDroppedAwaitingIdr := 0 }

def discontinue (rx : CheckedReceiver) (epoch : UInt32) (reason : DiscontinuityReason) :
    CheckedReceiver × List RxEvent :=
  ({ rx with
      pending := ∅
      pendingOrder := []
      completed := ∅
      completedOrder := []
      bufferedBytes := 0
      nextFrameId := none
      needsIdr := true
      awaitingIdr := true },
    [.discontinuity epoch reason])

def enterEpoch (rx : CheckedReceiver) (epoch : UInt32) (nowMs : Nat) : CheckedReceiver :=
  { rx with
    decoder := .new rxDecoderMaxSymbols rxDecoderMaxBytes
    activeEpoch := some epoch
    symbolsSinceAck := 0
    lastAckTimeMs := nowMs
    lastAckedHighest := none }

-- Here `none` is a refused epoch, not a failure.
def acceptEpoch (rx : CheckedReceiver) (epoch : UInt32) (isV2 : Bool) (nowMs : Nat) :
    Option (CheckedReceiver × List RxEvent) :=
  match rx.activeEpoch with
  | none => some ({ rx with activeEpoch := some epoch }, [])
  | some current =>
      if epoch = current then some (rx, [])
      else if isV2 && (current = 0 || seqAdvanced epoch current) then
        some ((rx.enterEpoch epoch nowMs).discontinue epoch .epochTransition)
      else none

def bufferFull (rx : CheckedReceiver) (fragment : List UInt8) : Bool :=
  rx.bufferedBytes + fragment.length > rxDecoderMaxBytes.toNat

def openPending (rx : CheckedReceiver) (key : UInt32 × UInt32) (frame : PendingFrame) :
    CheckedReceiver :=
  { rx with
    pending := rx.pending.insert key frame
    pendingOrder := rx.pendingOrder ++ [key]
    nextFrameId :=
      if rx.nextFrameId = none && (!rx.awaitingIdr || frame.isKey) then some key.2
      else rx.nextFrameId }

-- The frame is written through the reference `get_mut` gave, so the order stays.
def updatePending (rx : CheckedReceiver) (key : UInt32 × UInt32) (frame : PendingFrame)
    (added : Nat) : CheckedReceiver :=
  { rx with
    pending := rx.pending.insert key frame
    bufferedBytes := rx.bufferedBytes + added }

def removePending (rx : CheckedReceiver) (key : UInt32 × UInt32) : CheckedReceiver :=
  { rx with
    pending := rx.pending.erase key
    pendingOrder := rx.pendingOrder.filter (· ≠ key) }

def dropFrame (rx : CheckedReceiver) (key : UInt32 × UInt32) (frame : PendingFrame) :
    Option (CheckedReceiver × List RxEvent) := do
  let left ← checkedSub rx.bufferedBytes frame.bytes
  return ({ rx with
    bufferedBytes := left
    framesDroppedAwaitingIdr := rx.framesDroppedAwaitingIdr + 1
    nextFrameId := if rx.nextFrameId = some key.2 then none else rx.nextFrameId }, [])

def queueFrame (rx : CheckedReceiver) (key : UInt32 × UInt32) (frame : PendingFrame)
    (nowMs : Nat) : CheckedReceiver :=
  { rx with
    awaitingIdr := if frame.isKey then false else rx.awaitingIdr
    completed := rx.completed.insert key ⟨key.2, frame, nowMs⟩
    completedOrder := rx.completedOrder ++ [key] }

def completeFrame (rx : CheckedReceiver) (key : UInt32 × UInt32) (nowMs : Nat) :
    Option (CheckedReceiver × List RxEvent) := do
  -- `expect("present: completed above")`
  let frame ← rx.pending.lookup key
  let removed := rx.removePending key
  if rx.awaitingIdr && !frame.isKey then removed.dropFrame key frame
  else some (removed.queueFrame key frame nowMs, [])

def storeChunk (rx : CheckedReceiver) (key : UInt32 × UInt32) (isV2 : Bool) (chunk : Chunk)
    (viaFec : Bool) (nowMs : Nat) : Option (CheckedReceiver × List RxEvent) :=
  if !(rx.pending.lookup key).any (·.metadataMatches isV2 chunk) then
    some (rx.discontinue key.1 .metadataMismatch)
  else do
    -- `expect("present: checked above")`
    let frame ← rx.pending.lookup key
    if !frame.awaits chunk then some (rx, [])
    else if rx.bufferFull chunk.fragment then some (rx.discontinue key.1 .memoryCap)
    else
      let received ← checkedSucc frame.receivedCount
      let grown := rx.updatePending key (frame.store chunk viaFec) chunk.fragment.length
      if received ≠ frame.chunkCount.toNat then some (grown, [])
      else grown.completeFrame key nowMs

def admitChunk (rx : CheckedReceiver) (epoch : UInt32) (isV2 : Bool) (chunk : Chunk)
    (viaFec : Bool) (nowMs : Nat) : Option (CheckedReceiver × List RxEvent) :=
  let key := (epoch, chunk.frameId)
  if key ∈ rx.completed then some (rx, [])
  else if key ∈ rx.pending then rx.storeChunk key isV2 chunk viaFec nowMs
  else if rx.pendingOrder.length + rx.completedOrder.length ≥ maxPendingFrames then
    some (rx.discontinue epoch .reassemblyEviction)
  else if rx.bufferFull chunk.fragment then some (rx.discontinue epoch .memoryCap)
  else (rx.openPending key (chunk.openFrame isV2)).storeChunk key isV2 chunk viaFec nowMs

def deliverChunk (rx : CheckedReceiver) (epoch : UInt32) (isV2 : Bool) (payload : List UInt8)
    (viaFec : Bool) (nowMs : Nat) : Option (CheckedReceiver × List RxEvent) :=
  match parseChunk isV2 payload with
  | none => some (rx, [])
  | some chunk => do
      if ← chunk.checkedWellFormed isV2 then rx.admitChunk epoch isV2 chunk viaFec nowMs
      else some (rx, [])

def assembleFrame (rx : CheckedReceiver) (frameId : UInt32) (frame : PendingFrame)
    (epoch : UInt32) : Option (CheckedReceiver × List RxEvent) :=
  match PendingFrame.joinParts frame.parts with
  -- A missing part returns before the bytes are taken off.
  | none => some (rx, [])
  | some data => do
      let left ← checkedSub rx.bufferedBytes frame.bytes
      let released := { rx with bufferedBytes := left }
      if !frame.intact frameId data then some (released.discontinue epoch .frameCrc)
      else
        some ({ released with
            framesRecovered := rx.framesRecovered + (if frame.usedRecovery then 1 else 0)
            lastTimestampUs := frame.timestampUs },
          [.frame
            { frameId := frameId
              epoch := epoch
              isKey := frame.isKey
              timestampUs := frame.timestampUs
              durationUs := (frame.timestampUs.toNat : Int) - rx.lastTimestampUs.toNat
              data := data }])

def removeCompleted (rx : CheckedReceiver) (key : UInt32 × UInt32) : CheckedReceiver :=
  { rx with
    completed := rx.completed.erase key
    completedOrder := rx.completedOrder.filter (· ≠ key) }

def takeFrame (rx : CheckedReceiver) (expected : UInt32 × UInt32) :
    Option (CheckedReceiver × List RxEvent) := do
  -- `expect("checked above")`
  let found ← rx.completed.lookup expected
  let (assembled, emitted) ←
    (rx.removeCompleted expected).assembleFrame found.frameId found.frame expected.1
  return ({ assembled with nextFrameId := some (found.frameId + 1) }, emitted)

-- The `while` loop; it fails where it would need more than `fuel` rounds.
def flushLoop (nowMs : Nat) : Nat → CheckedReceiver → Option (CheckedReceiver × List RxEvent)
  | 0, _ => none
  | fuel + 1, rx =>
      match rx.completedOrder.head? with
      | none => some (rx, [])
      | some firstKey => do
          -- `expect("order refers to completed")`
          let first ← rx.completed.lookup firstKey
          let expected := (firstKey.1, rx.nextFrameId.getD first.frameId)
          if expected ∉ rx.completed then
            if rx.completedOrder.length ≤ reorderMaxCompletedFrames ∧
                nowMs - first.completedAtMs < reorderMaxWaitMs then some (rx, [])
            else some (rx.discontinue firstKey.1 .reorderGap)
          else Refinement.tryThen (rx.takeFrame expected) (flushLoop nowMs fuel)

-- The loop needs one round more than there are frames in the queue.
def flushReorder (rx : CheckedReceiver) (nowMs : Nat) : Option (CheckedReceiver × List RxEvent) :=
  flushLoop nowMs (rx.completedOrder.length + 1) rx

def tickAck (rx : CheckedReceiver) (nowMs : Nat) : CheckedReceiver × Option UInt32 :=
  match rx.decoder.highestFullyDecoded with
  | none => (rx, none)
  | some hfd =>
      if rx.lastAckedHighest.any (fun last => !seqAdvanced hfd last) then (rx, none)
      else if rx.symbolsSinceAck + 1 ≥ ackSymbolInterval ||
          nowMs - rx.lastAckTimeMs ≥ ackTimeIntervalMs then
        ({ rx with lastAckedHighest := some hfd, symbolsSinceAck := 0, lastAckTimeMs := nowMs },
          some hfd)
      else ({ rx with symbolsSinceAck := rx.symbolsSinceAck + 1 }, none)

def ackEvents (rx : CheckedReceiver) (nowMs : Nat) : CheckedReceiver × List RxEvent :=
  ((rx.tickAck nowMs).1, (rx.tickAck nowMs).2.toList.map .ack)

def deliverEvent (epoch : UInt32) (isV2 : Bool) (nowMs : Nat) (rx : CheckedReceiver) :
    DecoderEvent → Option (CheckedReceiver × List RxEvent)
  | .recovered _ payload viaFec =>
      Refinement.tryThen (rx.deliverChunk epoch isV2 payload viaFec nowMs)
        (fun next => some (next.ackEvents nowMs))
  | .lossSpan _ _ | .evicted _ _ => some (rx, [])

def discontinueOnLoss (rx : CheckedReceiver) (epoch : UInt32) (decoderEvents : List DecoderEvent) :
    CheckedReceiver × List RxEvent :=
  if decoderEvents.any DecoderEvent.isLoss then rx.discontinue epoch .fecEviction else (rx, [])

def processDecoderEvents (rx : CheckedReceiver) (epoch : UInt32) (isV2 : Bool)
    (decoderEvents : List DecoderEvent) (nowMs : Nat) : Option (CheckedReceiver × List RxEvent) :=
  Refinement.tryThen (some (rx.discontinueOnLoss epoch decoderEvents))
    (fun gated => Refinement.tryRun (deliverEvent epoch isV2 nowMs) gated decoderEvents)

def decode (rx : CheckedReceiver) (symbol : Symbol) : CheckedReceiver :=
  { rx with decoder := (rx.decoder.pushSymbol symbol).1 }

def onSymbol (rx : CheckedReceiver) (epoch : UInt32) (isV2 : Bool) (symbol : Symbol)
    (nowMs : Nat) : Option (CheckedReceiver × List RxEvent) :=
  let decoderEvents := (rx.decoder.pushSymbol symbol).2
  Refinement.tryThen ((rx.decode symbol).processDecoderEvents epoch isV2 decoderEvents nowMs)
    (·.flushReorder nowMs)

def onMessage (rx : CheckedReceiver) (buf : List UInt8) (nowMs : Nat) :
    Option (CheckedReceiver × List RxEvent) :=
  match parseSymbolMsgVersioned buf with
  | .error _ => some (rx, [])
  | .ok parsed =>
      let message := VideoReceiver.symbolOf parsed
      match rx.acceptEpoch message.epoch message.isV2 nowMs with
      | none => some (rx, [])
      | some accepted =>
          Refinement.tryThen (some accepted)
            (·.onSymbol message.epoch message.isV2 message.symbol nowMs)

def tickEvents (rx : CheckedReceiver) (nowMs : Nat) : Option (CheckedReceiver × List RxEvent) :=
  Refinement.tryThen (rx.flushReorder nowMs) (fun next => some (next.ackEvents nowMs))

def call (rx : CheckedReceiver) : RxCall → Option (CheckedReceiver × List RxEvent)
  | .onMessage buf nowMs => rx.onMessage buf nowMs
  | .tickEvents nowMs => rx.tickEvents nowMs
  | .tick nowMs => some (rx.ackEvents nowMs)
  | .pollNeedsIdr => some ({ rx with needsIdr := false }, [])

end CheckedReceiver

end BetterParsec
