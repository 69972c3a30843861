import BetterParsec.Browser.FecWire
import BetterParsec.Fec.WebDecoder

set_option autoImplicit false
set_option linter.all false

/-!
# The decode pipe of the browser

`fec_decode_pipe.ts`, the counterpart of `video_rx.rs`: chunks are reassembled
into frames, and complete frames leave in order.  The clock is the sequence of
the readings that `now()` gives during a call.  The output of a call is the
merged sequence of its `submitDecodeUnit` and `onDiscontinuity` calls; the calls
of `onAck` are listed in the state.
-/

namespace BetterParsec

namespace Web

def maxPendingFrames : Nat := 8

def maxCompletedFrames : Nat := 4

def reorderMaxWaitMs : Int := 100

def maxReassemblyReorderBytes : Int := 16 * 1024 * 1024

def ackSymbolInterval : Nat := 32

def ackTimeIntervalMs : Int := 50

def chunkHeaderSize : Nat := 13

inductive FecPipeConfig where
  | v1
  | v2 (epoch : UInt32)
  deriving DecidableEq

-- What `configure` is called with. A number that is no integer is refused like 0.
inductive ConfigRequest where
  | v1
  | v2 (epoch : Int)

def ConfigRequest.accepted : ConfigRequest → Option FecPipeConfig
  | .v1 => some .v1
  | .v2 epoch =>
      if epoch ≤ 0 ∨ epoch > 0xFFFFFFFF then none else some (.v2 (UInt32.ofNat epoch.toNat))

namespace FecPipeConfig

-- Version 1 has no epoch; its frames are kept under 0.
def epoch : FecPipeConfig → UInt32
  | .v1 => 0
  | .v2 epoch => epoch

def isV2 : FecPipeConfig → Bool
  | .v1 => false
  | .v2 _ => true

-- The symbol of a message, if its version and epoch are those configured.
def accept : FecPipeConfig → VersionedFecSymbol → Option Symbol
  | .v1, .v1 symbol => some symbol
  | .v2 configured, .v2 epoch symbol => if epoch = configured then some symbol else none
  | .v1, .v2 _ _ | .v2 _, .v1 _ => none

end FecPipeConfig

structure CompletedFrame where
  epoch : UInt32
  frameId : UInt32
  frame : PendingFrame
  completedAt : Int
  deriving DecidableEq

-- `threw` is whether the last call ended in an exception.
structure FecDecodePipe where
  decoder : FecDecoder
  framesRecovered : Nat
  framesDroppedAwaitingIdr : Nat
  pending : FrameMap PendingFrame
  completed : FrameMap CompletedFrame
  completedOrder : List (UInt32 × UInt32)
  bytesBuffered : Int
  config : FecPipeConfig
  hasExplicitConfig : Bool
  nextFrameId : Option UInt32
  needsIdr : Bool
  awaitingIdr : Bool
  lastTimestampUs : UInt32
  onAck : Bool
  acked : List UInt32
  symbolsSinceAck : Nat
  lastAckTime : Int
  lastAckedHighest : Option UInt32
  readings : Nat
  threw : Bool

def u32Newer (candidate current : UInt32) : Bool :=
  let distance := candidate - current
  distance ≠ 0 && distance < 0x80000000

-- The checks on the header of either version.
def acceptableHeader (frameType : UInt8) (chunkIndex chunkCount : UInt16) : Bool :=
  !(frameType > 1 || chunkCount = 0 || chunkCount.toNat > chunkCountMax ||
    chunkIndex ≥ chunkCount)

-- The equations that `deliverChunk` checks once more after the parser.
def measures (hdr : ChunkHeaderV2) (fragment : List UInt8) : Bool :=
  !(hdr.encodedFrameLen.toNat > frameMaxBytes ||
    hdr.chunkCount.toNat ≠ ceilDiv (max hdr.encodedFrameLen.toNat 1) chunkV2FragmentMax ||
    (fragment.length : Int) ≠
      if hdr.chunkIndex.toNat + 1 = hdr.chunkCount.toNat then
        (hdr.encodedFrameLen.toNat : Int) - chunkV2FragmentMax * ((hdr.chunkCount.toNat : Int) - 1)
      else chunkV2FragmentMax)

-- The chunk that a payload brings to reassembly. Where the source keeps `null` as the checksum of
-- a version 1 frame, the model keeps 0; the two are compared only within one version.
def readChunk (isV2 : Bool) (payload : List UInt8) : Option Chunk :=
  if isV2 then
    match parseChunkV2Bytes payload with
    | none => none
    | some hdr =>
        let fragment := payload.drop chunkHeaderV2Size
        if acceptableHeader hdr.frameType hdr.chunkIndex hdr.chunkCount && measures hdr fragment then
          some ⟨hdr.frameId, hdr.chunkIndex, hdr.chunkCount, hdr.frameType = 1, hdr.timestampUs,
            hdr.encodedFrameLen, hdr.encodedFrameCrc32, fragment⟩
        else none
  else if payload.length < chunkHeaderSize then none
  else
    let chunkIndex := u16At payload 4
    let chunkCount := u16At payload 6
    let frameType := payload.getD 8 0
    if acceptableHeader frameType chunkIndex chunkCount then
      some ⟨u32At payload 0, chunkIndex, chunkCount, frameType = 1, u32At payload 9, 0, 0,
        payload.drop chunkHeaderSize⟩
    else none

-- `parts[chunkIndex] !== undefined`.
def occupied (frame : PendingFrame) (chunk : Chunk) : Bool :=
  (frame.parts[chunk.chunkIndex.toNat]?).join.isSome

def verifyEncodedFrameV2 (frame : PendingFrame) (data : List UInt8) : Bool :=
  data.length = frame.encodedFrameLen.toNat && crc32 data = (frame.encodedFrameCrc32.toNat : Int)

-- How copying the parts into a buffer of the counted size ends.
inductive Filled where
  | data (bytes : List UInt8)
  | missing
  | overflow

def fillParts (size : Nat) : List UInt8 → List (Option (List UInt8)) → Filled
  | filled, [] => .data (filled ++ List.replicate (size - filled.length) 0)
  | _, none :: _ => .missing
  | filled, some part :: rest =>
      if filled.length + part.length > size then .overflow
      else fillParts size (filled ++ part) rest

namespace FecDecodePipe

def newDecoder : FecDecoder := .new 128 (16 * 1024 * 1024)

def new (onAck : Bool) (clock : Nat → Int) : FecDecodePipe :=
  { decoder := newDecoder
    framesRecovered := 0
    framesDroppedAwaitingIdr := 0
    pending := ∅
    completed := ∅
    completedOrder := []
    bytesBuffered := 0
    config := .v1
    hasExplicitConfig := false
    nextFrameId := none
    needsIdr := false
    awaitingIdr := false
    lastTimestampUs := 0
    onAck := onAck
    acked := []
    symbolsSinceAck := 0
    lastAckTime := clock 0
    lastAckedHighest := none
    readings := 1
    threw := false }

-- `this.now()`, and the pipe once it was read.
def now (pipe : FecDecodePipe) (clock : Nat → Int) : Int := clock pipe.readings

def read (pipe : FecDecodePipe) : FecDecodePipe := { pipe with readings := pipe.readings + 1 }

def resetEpochState (pipe : FecDecodePipe) (clock : Nat → Int) : FecDecodePipe :=
  { pipe.read with
    lastTimestampUs := 0
    symbolsSinceAck := 0
    lastAckedHighest := none
    lastAckTime := pipe.now clock }

-- The state change of `discontinue`; the call of `onDiscontinuity` is added by `discontinue`.
def clear (pipe : FecDecodePipe) : FecDecodePipe :=
  { pipe with
    pending := ∅
    completed := ∅
    completedOrder := []
    bytesBuffered := 0
    nextFrameId := none
    needsIdr := true
    awaitingIdr := true }

def discontinue (pipe : FecDecodePipe) (epoch : UInt32) (reason : DiscontinuityReason) :
    FecDecodePipe × List RxEvent :=
  (pipe.clear, [.discontinuity epoch reason])

-- Nothing is announced for the first explicit configuration; it counts as a fresh start.
def configure (pipe : FecDecodePipe) (request : ConfigRequest) (clock : Nat → Int) :
    FecDecodePipe × List RxEvent :=
  match request.accepted with
  | none => (pipe, [])
  | some config =>
      let latched := { pipe with config := config, hasExplicitConfig := true }
      if !pipe.hasExplicitConfig && config.isV2 then
        let fresh := { latched with decoder := newDecoder }.resetEpochState clock
        ({ fresh.clear with needsIdr := false }, [])
      else if pipe.hasExplicitConfig && pipe.config ≠ config then
        ({ latched with decoder := newDecoder }.resetEpochState clock).discontinue config.epoch
          .epochTransition
      else (latched, [])

def openPending (pipe : FecDecodePipe) (key : UInt32 × UInt32) (frame : PendingFrame) :
    FecDecodePipe :=
  { pipe with
    pending := pipe.pending.insert key frame
    nextFrameId :=
      if pipe.nextFrameId = none && (!pipe.awaitingIdr || frame.isKey) then some key.2
      else pipe.nextFrameId }

def overBudget (pipe : FecDecodePipe) (chunk : Chunk) : Bool :=
  pipe.bytesBuffered + chunk.fragment.length > maxReassemblyReorderBytes

-- Every part of `frame` is there.
def completeFrame (pipe : FecDecodePipe) (key : UInt32 × UInt32) (frame : PendingFrame)
    (clock : Nat → Int) : FecDecodePipe :=
  let removed := { pipe with pending := pipe.pending.erase key }
  if pipe.awaitingIdr && !frame.isKey then
    { removed with
      bytesBuffered := pipe.bytesBuffered - frame.bytes
      framesDroppedAwaitingIdr := pipe.framesDroppedAwaitingIdr + 1
      nextFrameId := if pipe.nextFrameId = some key.2 then none else pipe.nextFrameId }
  else
    { removed.read with
      awaitingIdr := if frame.isKey then false else pipe.awaitingIdr
      completed := pipe.completed.insert key ⟨key.1, key.2, frame, pipe.now clock⟩
      completedOrder := pipe.completedOrder ++ [key] }

def storePart (pipe : FecDecodePipe) (key : UInt32 × UInt32) (frame : PendingFrame) (chunk : Chunk)
    (viaFec : Bool) (clock : Nat → Int) : FecDecodePipe × List RxEvent :=
  if occupied frame chunk then (pipe, [])
  else if pipe.overBudget chunk then pipe.discontinue key.1 .memoryCap
  else
    let stored := frame.store chunk viaFec
    let grown :=
      { pipe with
        pending := pipe.pending.insert key stored
        bytesBuffered := pipe.bytesBuffered + chunk.fragment.length }
    if stored.receivedCount = stored.chunkCount.toNat then (grown.completeFrame key stored clock, [])
    else (grown, [])

-- The frame of the chunk is older than the anchor.
def behind (pipe : FecDecodePipe) (chunk : Chunk) : Bool :=
  pipe.nextFrameId.any (fun next => chunk.frameId ≠ next && !u32Newer chunk.frameId next)

def admitChunk (pipe : FecDecodePipe) (epoch : UInt32) (isV2 : Bool) (chunk : Chunk)
    (viaFec : Bool) (clock : Nat → Int) : FecDecodePipe × List RxEvent :=
  let key := (epoch, chunk.frameId)
  if (pipe.completed.lookup key).isSome || pipe.behind chunk then (pipe, [])
  else
    match pipe.pending.lookup key with
    | none =>
        if pipe.pending.size + pipe.completed.size ≥ maxPendingFrames then
          pipe.discontinue epoch .reassemblyEviction
        else if pipe.overBudget chunk then pipe.discontinue epoch .memoryCap
        else
          let opened := chunk.openFrame isV2
          (pipe.openPending key opened).storePart key opened chunk viaFec clock
    | some frame =>
        if !frame.metadataMatches isV2 chunk then pipe.discontinue epoch .metadataMismatch
        else pipe.storePart key frame chunk viaFec clock

def deliverChunk (pipe : FecDecodePipe) (epoch : UInt32) (isV2 : Bool) (payload : List UInt8)
    (viaFec : Bool) (clock : Nat → Int) : FecDecodePipe × List RxEvent :=
  match readChunk isV2 payload with
  | none => (pipe, [])
  | some chunk => pipe.admitChunk epoch isV2 chunk viaFec clock

def tickAck (pipe : FecDecodePipe) (delivered : Bool) (clock : Nat → Int) : FecDecodePipe :=
  match pipe.decoder.highestFullyDecoded with
  | none => pipe
  | some hfd =>
      if !pipe.onAck || pipe.lastAckedHighest.any (fun last => !u32Newer hfd last) then pipe
      else
        let symbolsSinceAck := pipe.symbolsSinceAck + if delivered then 1 else 0
        let elapsed := pipe.now clock - pipe.lastAckTime
        if symbolsSinceAck ≥ ackSymbolInterval || elapsed ≥ ackTimeIntervalMs then
          { pipe.read with
            lastAckedHighest := some hfd
            symbolsSinceAck := 0
            lastAckTime := pipe.now clock
            acked := pipe.acked ++ [hfd] }
        else { pipe.read with symbolsSinceAck := symbolsSinceAck }

def submitDecodeUnit (pipe : FecDecodePipe) (completed : CompletedFrame) (data : List UInt8) :
    FecDecodePipe × List RxEvent :=
  let frame := completed.frame
  ({ pipe with
      framesRecovered := pipe.framesRecovered + (if frame.usedRecovery then 1 else 0)
      lastTimestampUs := frame.timestampUs },
    [.frame
      { frameId := completed.frameId
        epoch := completed.epoch
        isKey := frame.isKey
        timestampUs := frame.timestampUs
        durationUs := (frame.timestampUs.toNat : Int) - pipe.lastTimestampUs.toNat
        data := data }])

-- The unit, or the discontinuity of a damaged frame; `none` is the exception of a part that does
-- not fit the buffer.
def emitFrame (pipe : FecDecodePipe) (completed : CompletedFrame) :
    Option (FecDecodePipe × List RxEvent) :=
  let frame := completed.frame
  match fillParts frame.bytes [] frame.parts with
  | .overflow => none
  | .missing => some (pipe, [])
  | .data data =>
      let released := { pipe with bytesBuffered := pipe.bytesBuffered - frame.bytes }
      if frame.isV2 && !verifyEncodedFrameV2 frame data then
        some (released.discontinue completed.epoch .frameCrc)
      else some (released.submitDecodeUnit completed data)

-- `splice(indexOf(key), 1)`: an absent key has index -1, which is the last place.
def spliceKey (order : List (UInt32 × UInt32)) (key : UInt32 × UInt32) : List (UInt32 × UInt32) :=
  if key ∈ order then order.erase key else order.dropLast

def removeCompleted (pipe : FecDecodePipe) (key : UInt32 × UInt32) : FecDecodePipe :=
  { pipe with
    completed := pipe.completed.erase key
    completedOrder := spliceKey pipe.completedOrder key }

-- The anchor moves on even when the frame was damaged.
def takeFrame (pipe : FecDecodePipe) (key : UInt32 × UInt32) (next : CompletedFrame) :
    Option (FecDecodePipe × List RxEvent) := do
  let (emitted, events) ← (pipe.removeCompleted key).emitFrame next
  return ({ emitted with nextFrameId := some (next.frameId + 1) }, events)

def expectedKey (pipe : FecDecodePipe) (firstKey : UInt32 × UInt32) (first : CompletedFrame) :
    UInt32 × UInt32 :=
  match pipe.nextFrameId with
  | none => firstKey
  | some next => (first.epoch, next)

def flushLoop (now : Int) : Nat → FecDecodePipe → FecDecodePipe × List RxEvent
  | 0, pipe => (pipe, [])
  | fuel + 1, pipe =>
      match pipe.completedOrder with
      | [] => (pipe, [])
      | firstKey :: _ =>
          match pipe.completed.lookup firstKey with
          | none => ({ pipe with threw := true }, [])
          | some first =>
              let expectedKey := pipe.expectedKey firstKey first
              match pipe.completed.lookup expectedKey with
              | none =>
                  if pipe.completedOrder.length ≤ maxCompletedFrames &&
                      now - first.completedAt < reorderMaxWaitMs then (pipe, [])
                  else pipe.discontinue first.epoch .reorderGap
              | some next =>
                  match pipe.takeFrame expectedKey next with
                  | none => ({ pipe.removeCompleted expectedKey with threw := true }, [])
                  | some taken => Runs.andThen taken (flushLoop now fuel)

-- Each round takes one key off the list, so its length bounds the rounds.
def flushReorder (pipe : FecDecodePipe) (clock : Nat → Int) : FecDecodePipe × List RxEvent :=
  flushLoop (pipe.now clock) pipe.completedOrder.length pipe.read

def deliverEvent (epoch : UInt32) (isV2 : Bool) (clock : Nat → Int) (pipe : FecDecodePipe) :
    DecoderEvent → FecDecodePipe × List RxEvent
  | .recovered _ payload viaFec =>
      let delivered := pipe.deliverChunk epoch isV2 payload viaFec clock
      (delivered.1.tickAck true clock, delivered.2)
  | .lossSpan _ _ | .evicted _ _ => pipe.discontinue epoch .fecEviction

def decode (pipe : FecDecodePipe) (symbol : Symbol) : FecDecodePipe :=
  { pipe with decoder := (WebDecoder.pushSymbol pipe.decoder symbol).1 }

def decoderEvents (pipe : FecDecodePipe) (symbol : Symbol) : List DecoderEvent :=
  (WebDecoder.pushSymbol pipe.decoder symbol).2

def onSymbol (pipe : FecDecodePipe) (symbol : Symbol) (clock : Nat → Int) :
    FecDecodePipe × List RxEvent :=
  Runs.andThen
    (Runs.run (deliverEvent pipe.config.epoch pipe.config.isV2 clock) (pipe.decode symbol)
      (pipe.decoderEvents symbol))
    (·.flushReorder clock)

-- The symbol that a packet brings, if the pipe takes it.
def symbolOf (pipe : FecDecodePipe) (buffer : List UInt8) : Option Symbol :=
  (parseSymbolMessage buffer).bind pipe.config.accept

def submitPacket (pipe : FecDecodePipe) (buffer : List UInt8) (clock : Nat → Int) :
    FecDecodePipe × List RxEvent :=
  match pipe.symbolOf buffer with
  | none => (pipe, [])
  | some symbol => pipe.onSymbol symbol clock

def tickTimer (pipe : FecDecodePipe) (clock : Nat → Int) : FecDecodePipe × List RxEvent :=
  let flushed := pipe.flushReorder clock
  if flushed.1.threw then flushed else (flushed.1.tickAck false clock, flushed.2)

-- The answer; `base` is that of the next pipe, if it has one.
def pollRequestIdr (pipe : FecDecodePipe) (base : Option Bool) : FecDecodePipe × Bool :=
  ({ pipe with needsIdr := false }, pipe.needsIdr || base.getD false)

end FecDecodePipe

inductive PipeCall where
  | configure (request : ConfigRequest) (clock : Nat → Int)
  | submitPacket (buffer : List UInt8) (clock : Nat → Int)
  | tickTimer (clock : Nat → Int)
  | pollRequestIdr (base : Option Bool)
  | setOnAck

def FecDecodePipe.call (pipe : FecDecodePipe) (input : PipeCall) : FecDecodePipe × List RxEvent :=
  let started := { pipe with threw := false }
  match input with
  | .configure request clock => started.configure request clock
  | .submitPacket buffer clock => started.submitPacket buffer clock
  | .tickTimer clock => started.tickTimer clock
  | .pollRequestIdr base => ((started.pollRequestIdr base).1, [])
  | .setOnAck => ({ started with onAck := true }, [])

end Web

end BetterParsec
