import BetterParsec.Fec.NativeDecoder
import BetterParsec.Library.Assoc
import BetterParsec.Library.Runs
import BetterParsec.Wire.SymbolMessages

set_option autoImplicit false
set_option linter.all false

/-!
# Video receiver

The receive pipeline of `video_rx.rs`: symbol messages go through the FEC
decoder, the recovered chunks are reassembled into frames, and complete frames
leave in order through a bounded reorder queue. The clock is an argument of
every call.
-/

namespace BetterParsec

def maxPendingFrames : Nat := 8

def ackSymbolInterval : Nat := 32

def ackTimeIntervalMs : Nat := 50

def reorderMaxCompletedFrames : Nat := 4

def reorderMaxWaitMs : Nat := 100

def rxDecoderMaxSymbols : UInt16 := 128

def rxDecoderMaxBytes : UInt32 := 16 * 1024 * 1024

structure DecodeUnit where
  frameId : UInt32
  epoch : UInt32
  isKey : Bool
  timestampUs : UInt32
  durationUs : Int
  data : List UInt8
  deriving DecidableEq

inductive DiscontinuityReason where
  | epochTransition
  | reorderGap
  | reassemblyEviction
  | metadataMismatch
  | frameCrc
  | memoryCap
  | fecEviction
  | queueOverflow
  deriving DecidableEq

inductive RxEvent where
  | frame (unit : DecodeUnit)
  | discontinuity (epoch : UInt32) (reason : DiscontinuityReason)
  | ack (seq : UInt32)
  deriving DecidableEq

structure PendingFrame where
  isV2 : Bool
  isKey : Bool
  timestampUs : UInt32
  chunkCount : UInt16
  encodedFrameLen : UInt32
  encodedFrameCrc32 : UInt32
  parts : List (Option (List UInt8))
  receivedCount : Nat
  bytes : Nat
  usedRecovery : Bool
  deriving DecidableEq

structure CompletedFrame where
  frameId : UInt32
  frame : PendingFrame
  completedAtMs : Nat
  deriving DecidableEq

-- A chunk of either version once its header is parsed.
structure Chunk where
  frameId : UInt32
  chunkIndex : UInt16
  chunkCount : UInt16
  isKey : Bool
  timestampUs : UInt32
  encodedLen : UInt32
  encodedCrc : UInt32
  fragment : List UInt8
  deriving DecidableEq

def parseChunk (isV2 : Bool) (payload : List UInt8) : Option Chunk :=
  if isV2 then
    match parseChunkV2 payload with
    | .error _ => none
    | .ok (hdr, fragment) =>
        some ⟨hdr.frameId, hdr.chunkIndex, hdr.chunkCount, hdr.frameTypeKey, hdr.timestampUs,
          hdr.encodedFrameLen, hdr.encodedFrameCrc32, fragment⟩
  else
    match parseChunkHeader payload with
    | none => none
    | some (hdr, fragment) =>
        if hdr.chunkCount = 0 ∨ hdr.chunkIndex ≥ hdr.chunkCount then none
        else some ⟨hdr.frameId, hdr.chunkIndex, hdr.chunkCount, hdr.frameTypeKey, hdr.timestampUs,
          0, 0, fragment⟩

namespace Chunk

def expectedFragmentLen (chunk : Chunk) : Nat :=
  if (chunk.chunkIndex + 1).toNat = chunk.chunkCount.toNat then
    chunk.encodedLen.toNat - chunkV2FragmentMax * (chunk.chunkCount.toNat - 1)
  else chunkV2FragmentMax

-- The checks made before the chunk is looked up.
def wellFormed (chunk : Chunk) (isV2 : Bool) : Bool :=
  !(chunk.chunkCount = 0 || chunk.chunkCount > v2ChunkCountMax ||
      chunk.encodedLen.toNat > encodedFrameMax) &&
    (!isV2 || (chunk.chunkCount.toNat = chunkCountOf chunk.encodedLen.toNat &&
      chunk.fragment.length = chunk.expectedFragmentLen))

def openFrame (chunk : Chunk) (isV2 : Bool) : PendingFrame :=
  { isV2 := isV2
    isKey := chunk.isKey
    timestampUs := chunk.timestampUs
    chunkCount := chunk.chunkCount
    encodedFrameLen := chunk.encodedLen
    encodedFrameCrc32 := chunk.encodedCrc
    parts := List.replicate chunk.chunkCount.toNat none
    receivedCount := 0
    bytes := 0
    usedRecovery := false }

end Chunk

namespace PendingFrame

def metadataMatches (frame : PendingFrame) (isV2 : Bool) (chunk : Chunk) : Bool :=
  frame.isV2 = isV2 && frame.isKey = chunk.isKey && frame.timestampUs = chunk.timestampUs &&
    frame.chunkCount = chunk.chunkCount && frame.encodedFrameLen = chunk.encodedLen &&
    frame.encodedFrameCrc32 = chunk.encodedCrc

def awaits (frame : PendingFrame) (chunk : Chunk) : Bool :=
  frame.parts[chunk.chunkIndex.toNat]? = some none

def store (frame : PendingFrame) (chunk : Chunk) (viaFec : Bool) : PendingFrame :=
  { frame with
    parts := frame.parts.set chunk.chunkIndex.toNat (some chunk.fragment)
    receivedCount := frame.receivedCount + 1
    bytes := frame.bytes + chunk.fragment.length
    usedRecovery := frame.usedRecovery || viaFec }

def header (frame : PendingFrame) (frameId : UInt32) : ChunkV2Header :=
  { frameId := frameId
    chunkIndex := 0
    chunkCount := frame.chunkCount
    frameTypeKey := frame.isKey
    timestampUs := frame.timestampUs
    encodedFrameLen := frame.encodedFrameLen
    encodedFrameCrc32 := frame.encodedFrameCrc32 }

def joinParts : List (Option (List UInt8)) → Option (List UInt8)
  | [] => some []
  | none :: _ => none
  | some part :: rest => (joinParts rest).map (fun data => part ++ data)

def intact (frame : PendingFrame) (frameId : UInt32) (data : List UInt8) : Bool :=
  !frame.isV2 || (validateEncodedFrameV2 (frame.header frameId) data).isOk

end PendingFrame

-- RFC 1982 order; the zero distance and the half range are both rejected.
def seqAdvanced (candidate previous : UInt32) : Bool :=
  let distance := candidate - previous
  distance ≠ 0 && distance < 0x80000000

-- A hash map with the list of its keys in insertion order, newest first here.
abbrev FrameMap (V : Type) := AList (fun _ : UInt32 × UInt32 => V)

def FrameMap.size {V : Type} (frames : FrameMap V) : Nat := frames.keys.length

structure VideoReceiver where
  decoder : FecDecoder
  pending : FrameMap PendingFrame
  completed : FrameMap CompletedFrame
  bufferedBytes : Nat
  activeEpoch : Option UInt32
  nextFrameId : Option UInt32
  needsIdr : Bool
  awaitingIdr : Bool
  lastTimestampUs : UInt32
  symbolsSinceAck : Nat
  lastAckTimeMs : Nat
  lastAckedHighest : Option UInt32
  framesRecovered : Nat
  framesDroppedAwaitingIdr : Nat

def DecoderEvent.isLoss : DecoderEvent → Bool
  | .lossSpan _ _ | .evicted _ _ => true
  | .recovered _ _ _ => false

structure SymbolMessage where
  epoch : UInt32
  isV2 : Bool
  symbol : Symbol

namespace VideoReceiver

def new (nowMs : Nat) : VideoReceiver :=
  { decoder := .new rxDecoderMaxSymbols rxDecoderMaxBytes
    pending := ∅
    completed := ∅
    bufferedBytes := 0
    activeEpoch := none
    nextFrameId := none
    needsIdr := false
    awaitingIdr := false
    lastTimestampUs := 0
    symbolsSinceAck := 0
    lastAckTimeMs := nowMs
    lastAckedHighest := none
    framesRecovered := 0
    framesDroppedAwaitingIdr := 0 }

-- The state change of `discontinue`; the event is added by its callers.
def reset (rx : VideoReceiver) : VideoReceiver :=
  { rx with
    pending := ∅
    completed := ∅
    bufferedBytes := 0
    nextFrameId := none
    needsIdr := true
    awaitingIdr := true }

def discontinue (rx : VideoReceiver) (epoch : UInt32) (reason : DiscontinuityReason) :
    VideoReceiver × List RxEvent :=
  (rx.reset, [.discontinuity epoch reason])

-- A fresh decoder and ACK cadence for a new epoch.
def enterEpoch (rx : VideoReceiver) (epoch : UInt32) (nowMs : Nat) : VideoReceiver :=
  { rx with
    decoder := .new rxDecoderMaxSymbols rxDecoderMaxBytes
    activeEpoch := some epoch
    symbolsSinceAck := 0
    lastAckTimeMs := nowMs
    lastAckedHighest := none }

-- The state once the epoch of a message is accepted, or `none` if it is refused.
def acceptEpoch (rx : VideoReceiver) (epoch : UInt32) (isV2 : Bool) (nowMs : Nat) :
    Option (VideoReceiver × List RxEvent) :=
  match rx.activeEpoch with
  | none => some ({ rx with activeEpoch := some epoch }, [])
  | some current =>
      if epoch = current then some (rx, [])
      else if isV2 && (current = 0 || seqAdvanced epoch current) then
        some ((rx.enterEpoch epoch nowMs).discontinue epoch .epochTransition)
      else none

def bufferFull (rx : VideoReceiver) (fragment : List UInt8) : Bool :=
  rx.bufferedBytes + fragment.length > rxDecoderMaxBytes.toNat

def openPending (rx : VideoReceiver) (key : UInt32 × UInt32) (frame : PendingFrame) :
    VideoReceiver :=
  { rx with
    pending := rx.pending.insert key frame
    nextFrameId :=
      if rx.nextFrameId = none && (!rx.awaitingIdr || frame.isKey) then some key.2
      else rx.nextFrameId }

def updatePending (rx : VideoReceiver) (key : UInt32 × UInt32) (frame : PendingFrame)
    (added : Nat) : VideoReceiver :=
  { rx with
    pending := rx.pending.insert key frame
    bufferedBytes := rx.bufferedBytes + added }

def dropFrame (rx : VideoReceiver) (key : UInt32 × UInt32) (frame : PendingFrame) :
    VideoReceiver :=
  { rx with
    pending := rx.pending.erase key
    bufferedBytes := rx.bufferedBytes - frame.bytes
    framesDroppedAwaitingIdr := rx.framesDroppedAwaitingIdr + 1
    nextFrameId := if rx.nextFrameId = some key.2 then none else rx.nextFrameId }

def queueFrame (rx : VideoReceiver) (key : UInt32 × UInt32) (frame : PendingFrame)
    (nowMs : Nat) : VideoReceiver :=
  { rx with
    pending := rx.pending.erase key
    awaitingIdr := if frame.isKey then false else rx.awaitingIdr
    completed := rx.completed.insert key ⟨key.2, frame, nowMs⟩ }

-- Every part of `frame` is there: it is queued, or dropped while an IDR is awaited.
def completeFrame (rx : VideoReceiver) (key : UInt32 × UInt32) (frame : PendingFrame)
    (nowMs : Nat) : VideoReceiver :=
  if rx.awaitingIdr && !frame.isKey then rx.dropFrame key frame
  else rx.queueFrame key frame nowMs

-- The chunk is stored in `frame`, which is pending under `key`.
def storeChunk (rx : VideoReceiver) (key : UInt32 × UInt32) (frame : PendingFrame) (isV2 : Bool)
    (chunk : Chunk) (viaFec : Bool) (nowMs : Nat) : VideoReceiver × List RxEvent :=
  if !frame.metadataMatches isV2 chunk then rx.discontinue key.1 .metadataMismatch
  else if !frame.awaits chunk then (rx, [])
  else if rx.bufferFull chunk.fragment then rx.discontinue key.1 .memoryCap
  else
    let stored := frame.store chunk viaFec
    let grown := rx.updatePending key stored chunk.fragment.length
    if stored.receivedCount ≠ stored.chunkCount.toNat then (grown, [])
    else (grown.completeFrame key stored nowMs, [])

def admitChunk (rx : VideoReceiver) (epoch : UInt32) (isV2 : Bool) (chunk : Chunk)
    (viaFec : Bool) (nowMs : Nat) : VideoReceiver × List RxEvent :=
  let key := (epoch, chunk.frameId)
  if (rx.completed.lookup key).isSome then (rx, [])
  else
    match rx.pending.lookup key with
    | some frame => rx.storeChunk key frame isV2 chunk viaFec nowMs
    | none =>
        if rx.pending.size + rx.completed.size ≥ maxPendingFrames then
          rx.discontinue epoch .reassemblyEviction
        else if rx.bufferFull chunk.fragment then rx.discontinue epoch .memoryCap
        else
          let opened := chunk.openFrame isV2
          (rx.openPending key opened).storeChunk key opened isV2 chunk viaFec nowMs

def deliverChunk (rx : VideoReceiver) (epoch : UInt32) (isV2 : Bool) (payload : List UInt8)
    (viaFec : Bool) (nowMs : Nat) : VideoReceiver × List RxEvent :=
  match parseChunk isV2 payload with
  | none => (rx, [])
  | some chunk =>
      if chunk.wellFormed isV2 then rx.admitChunk epoch isV2 chunk viaFec nowMs else (rx, [])

-- The unit, or the discontinuity of a frame that fails its length or checksum.
def assembleFrame (rx : VideoReceiver) (frameId : UInt32) (frame : PendingFrame) (epoch : UInt32) :
    VideoReceiver × List RxEvent :=
  match PendingFrame.joinParts frame.parts with
  | none => (rx, [])
  | some data =>
      let released := { rx with bufferedBytes := rx.bufferedBytes - frame.bytes }
      if !frame.intact frameId data then released.discontinue epoch .frameCrc
      else
        ({ released with
            framesRecovered := rx.framesRecovered + (if frame.usedRecovery then 1 else 0)
            lastTimestampUs := frame.timestampUs },
          [.frame
            { frameId := frameId
              epoch := epoch
              isKey := frame.isKey
              timestampUs := frame.timestampUs
              durationUs := (frame.timestampUs.toNat : Int) - rx.lastTimestampUs.toNat
              data := data }])

def takeFrame (rx : VideoReceiver) (expected : UInt32 × UInt32) (found : CompletedFrame) :
    VideoReceiver × List RxEvent :=
  let assembled := { rx with completed := rx.completed.erase expected }.assembleFrame found.frameId
    found.frame expected.1
  -- The anchor moves on even when assembling the frame reset the receiver.
  ({ assembled.1 with nextFrameId := some (found.frameId + 1) }, assembled.2)

def flushLoop (nowMs : Nat) : Nat → VideoReceiver → VideoReceiver × List RxEvent
  | 0, rx => (rx, [])
  | fuel + 1, rx =>
      match rx.completed.entries.getLast? with
      | none => (rx, [])
      | some ⟨firstKey, first⟩ =>
          let expected := (firstKey.1, rx.nextFrameId.getD first.frameId)
          match rx.completed.lookup expected with
          | none =>
              if rx.completed.size ≤ reorderMaxCompletedFrames &&
                  nowMs - first.completedAtMs < reorderMaxWaitMs then (rx, [])
              else rx.discontinue firstKey.1 .reorderGap
          | some found => Runs.andThen (rx.takeFrame expected found) (flushLoop nowMs fuel)

-- Each round takes one frame out of the queue, so its size bounds the rounds.
def flushReorder (rx : VideoReceiver) (nowMs : Nat) : VideoReceiver × List RxEvent :=
  flushLoop nowMs rx.completed.size rx

def tickAck (rx : VideoReceiver) (nowMs : Nat) : VideoReceiver × Option UInt32 :=
  match rx.decoder.highestFullyDecoded with
  | none => (rx, none)
  | some hfd =>
      if rx.lastAckedHighest.any (fun last => !seqAdvanced hfd last) then (rx, none)
      else if rx.symbolsSinceAck + 1 ≥ ackSymbolInterval ||
          nowMs - rx.lastAckTimeMs ≥ ackTimeIntervalMs then
        ({ rx with lastAckedHighest := some hfd, symbolsSinceAck := 0, lastAckTimeMs := nowMs },
          some hfd)
      else ({ rx with symbolsSinceAck := rx.symbolsSinceAck + 1 }, none)

def ackEvents (rx : VideoReceiver) (nowMs : Nat) : VideoReceiver × List RxEvent :=
  ((rx.tickAck nowMs).1, (rx.tickAck nowMs).2.toList.map .ack)

-- One `Recovered` event: the chunk, then the ACK gate.
def deliverEvent (epoch : UInt32) (isV2 : Bool) (nowMs : Nat) (rx : VideoReceiver) :
    DecoderEvent → VideoReceiver × List RxEvent
  | .recovered _ payload viaFec =>
      Runs.andThen (rx.deliverChunk epoch isV2 payload viaFec nowMs) (·.ackEvents nowMs)
  | .lossSpan _ _ | .evicted _ _ => (rx, [])

def discontinueOnLoss (rx : VideoReceiver) (epoch : UInt32) (decoderEvents : List DecoderEvent) :
    VideoReceiver × List RxEvent :=
  if decoderEvents.any DecoderEvent.isLoss then rx.discontinue epoch .fecEviction else (rx, [])

def processDecoderEvents (rx : VideoReceiver) (epoch : UInt32) (isV2 : Bool)
    (decoderEvents : List DecoderEvent) (nowMs : Nat) : VideoReceiver × List RxEvent :=
  Runs.andThen (rx.discontinueOnLoss epoch decoderEvents)
    (fun gated => Runs.run (deliverEvent epoch isV2 nowMs) gated decoderEvents)

-- Version 1 messages count as epoch 0, which no version 2 message carries.
def symbolOf : ParsedSymbolMsg → SymbolMessage
  | .v1 symbol => ⟨0, false, symbol⟩
  | .v2 (.source epoch seq payload) => ⟨epoch.get, true, .source seq payload⟩
  | .v2 (.repair epoch repairSeq windowBase windowEnd payload) =>
      ⟨epoch.get, true, .repair repairSeq windowBase windowEnd payload⟩

def decode (rx : VideoReceiver) (symbol : Symbol) : VideoReceiver :=
  { rx with decoder := (rx.decoder.pushSymbol symbol).1 }

-- What follows once the epoch is accepted: decode, deliver, flush.
def onSymbol (rx : VideoReceiver) (epoch : UInt32) (isV2 : Bool) (symbol : Symbol) (nowMs : Nat) :
    VideoReceiver × List RxEvent :=
  let decoderEvents := (rx.decoder.pushSymbol symbol).2
  Runs.andThen ((rx.decode symbol).processDecoderEvents epoch isV2 decoderEvents nowMs)
    (·.flushReorder nowMs)

def onMessage (rx : VideoReceiver) (buf : List UInt8) (nowMs : Nat) :
    VideoReceiver × List RxEvent :=
  match parseSymbolMsgVersioned buf with
  | .error _ => (rx, [])
  | .ok parsed =>
      let message := symbolOf parsed
      match rx.acceptEpoch message.epoch message.isV2 nowMs with
      | none => (rx, [])
      | some accepted =>
          Runs.andThen accepted (·.onSymbol message.epoch message.isV2 message.symbol nowMs)

def tick (rx : VideoReceiver) (nowMs : Nat) : VideoReceiver × Option UInt32 := rx.tickAck nowMs

def tickEvents (rx : VideoReceiver) (nowMs : Nat) : VideoReceiver × List RxEvent :=
  Runs.andThen (rx.flushReorder nowMs) (·.ackEvents nowMs)

def pollNeedsIdr (rx : VideoReceiver) : VideoReceiver × Bool :=
  ({ rx with needsIdr := false }, rx.needsIdr)

end VideoReceiver

inductive RxCall where
  | onMessage (buf : List UInt8) (nowMs : Nat)
  | tickEvents (nowMs : Nat)
  | tick (nowMs : Nat)
  | pollNeedsIdr

-- One call; the value that `tick` returns counts as an ACK.
def VideoReceiver.call (rx : VideoReceiver) : RxCall → VideoReceiver × List RxEvent
  | .onMessage buf nowMs => rx.onMessage buf nowMs
  | .tickEvents nowMs => rx.tickEvents nowMs
  | .tick nowMs => ((rx.tick nowMs).1, (rx.tick nowMs).2.toList.map .ack)
  | .pollNeedsIdr => (rx.pollNeedsIdr.1, [])

end BetterParsec
