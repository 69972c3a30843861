import BetterParsec.Library.LittleEndian
import BetterParsec.Library.Runs

set_option autoImplicit false
set_option linter.all false

/-!
# The MediaSource decoder of the browser

`MediaSourceDecoder` of `web/stream/video/media_source_decoder.ts` behind the
H.264 translator of `annex_b_translator.ts`.  A segment is the call that writes
it, and times are exact rationals; what a call throws ends it where it stands.
-/

namespace BetterParsec

namespace Web

-- A time is a number of microseconds.
structure VideoDecodeUnit where
  key : Bool
  data : List UInt8
  timestampMicroseconds : ℚ
  deriving DecidableEq

-- The bytes of `avc1.PPCCLL`, and the `avcC` record.
structure VideoDecoderConfig where
  codec : List UInt8
  description : List UInt8
  deriving DecidableEq

def h264NalType (header : UInt8) : UInt8 := header &&& 0x1f

-- The type of what is not there is 0.
def nalTypeAt (bytes : List UInt8) (position : Nat) : UInt8 :=
  bytes[position]?.elim 0 h264NalType

-- What stands between the start codes; `seen` is read since the last one.
def nalUnits : List UInt8 → List UInt8 → List (List UInt8)
  | seen, 0 :: 0 :: 0 :: 1 :: rest => seen :: nalUnits [] rest
  | seen, 0 :: 0 :: 1 :: rest => seen :: nalUnits [] rest
  | seen, byte :: rest => nalUnits (seen ++ [byte]) rest
  | seen, [] => [seen]

-- A start code at position 0 ends no unit.
def slices (data : List UInt8) : List (List UInt8) :=
  match data with
  | 0 :: 0 :: 0 :: 1 :: rest => nalUnits [] rest
  | 0 :: 0 :: 1 :: rest => nalUnits [] rest
  | data => nalUnits [] data

def h264MakeAvcC (sps pps : List UInt8) : List UInt8 :=
  [1, sps.getD 1 0, sps.getD 2 0, sps.getD 3 0, 0xFF, 0xE1] ++
    [UInt8.ofNat (sps.length / 256), UInt8.ofNat sps.length] ++ sps ++
    [1, UInt8.ofNat (pps.length / 256), UInt8.ofNat pps.length] ++ pps ++
    -- The size counts one byte more than is written.
    [0]

structure H264StreamVideoTranslator where
  hasDescription : Bool
  pps : Option (List UInt8)
  sps : Option (List UInt8)
  decoderConfig : VideoDecoderConfig
  deriving DecidableEq

namespace H264StreamVideoTranslator

def new : H264StreamVideoTranslator := ⟨false, none, none, [], []⟩

-- Whether the slice goes into the frame; an SPS that is too short to parse throws.
def onChunkUnit (t : H264StreamVideoTranslator) (slice : List UInt8) :
    H264StreamVideoTranslator × Option Bool :=
  if nalTypeAt slice 0 = 7 then
    if slice.length < 4 then ({ t with sps := some slice }, none)
    else
      ({ t with
          sps := some slice
          decoderConfig := { t.decoderConfig with codec := (slice.drop 1).take 3 } }, some false)
  else if nalTypeAt slice 0 = 8 then ({ t with pps := some slice }, some false)
  else (t, some true)

-- The slices behind the length of each, as far as nothing throws.
def process : H264StreamVideoTranslator → List UInt8 → List (List UInt8) →
    H264StreamVideoTranslator × Option (List UInt8)
  | t, frame, [] => (t, some frame)
  | t, frame, slice :: rest =>
    match t.onChunkUnit slice with
    | (t, none) => (t, none)
    | (t, some false) => t.process frame rest
    | (t, some true) => t.process (frame ++ BigEndian.bytes 4 slice.length ++ slice) rest

def endChunk (t : H264StreamVideoTranslator) : H264StreamVideoTranslator × Bool :=
  match t.pps, t.sps with
  | some pps, some sps =>
    ({ hasDescription := true
       pps := none
       sps := none
       decoderConfig := { t.decoderConfig with description := h264MakeAvcC sps pps } }, true)
  | _, _ => (t, false)

-- What it gives: none is a throw, then the new configuration and the chunk, if any.
abbrev Value := Option (Option VideoDecoderConfig × Option (List UInt8))

-- `decoderConfig` is always there, so no `error` is returned.
def submitDecodeUnit (t : H264StreamVideoTranslator) (unit : VideoDecodeUnit) :
    H264StreamVideoTranslator × Value :=
  if !(unit.key || t.hasDescription) then (t, some (none, none))
  else
    match t.process [] (slices unit.data) with
    | (t, none) => (t, none)
    | (t, some chunk) =>
      let (t, reconfigure) := t.endChunk
      (t, some (if reconfigure then some t.decoderConfig else none, some chunk))

end H264StreamVideoTranslator

-- The frame whose segment is written.
structure FrameSegment where
  sequenceNumber : Nat
  baseDecodeTime : ℚ
  frameDuration : ℚ
  isKeyframe : Bool
  frame : List UInt8
  deriving DecidableEq

inductive Segment where
  | init (width height : Nat) (avcC : List UInt8)
  | frame (written : FrameSegment)
  deriving DecidableEq

section Lengths

-- How many bytes a box is long over its contents.
def putBox (contents : Nat) : Nat := 4 + 4 + contents

def putFullBox (contents : Nat) : Nat := putBox (4 + contents)

def putAvc1Box (avcC : List UInt8) : Nat :=
  putBox (6 + 2 + 2 + 2 + 3 * 4 + 2 + 2 + 4 + 4 + 4 + 2 + 32 + 2 + 2 + putBox avcC.length)

def putStblBox (avcC : List UInt8) : Nat :=
  putBox (putFullBox (4 + putAvc1Box avcC) + putFullBox 4 + putFullBox 4 + putFullBox (4 + 4) +
    putFullBox 4)

def putMinfBox (avcC : List UInt8) : Nat :=
  putBox (putFullBox (2 + 3 * 2) + putBox (putFullBox (4 + putFullBox 0)) + putStblBox avcC)

-- The handler is named `VideoHandler`.
def putMdiaBox (avcC : List UInt8) : Nat :=
  putBox (putFullBox (4 * 4 + 2 + 2) + putFullBox (4 + 4 + 3 * 4 + 12 + 1) + putMinfBox avcC)

def putTrakBox (avcC : List UInt8) : Nat :=
  putBox (putFullBox (5 * 4 + 2 * 4 + 4 * 2 + 9 * 4 + 4 + 4) + putMdiaBox avcC)

def putVideoInitSegment (avcC : List UInt8) : Nat :=
  putBox (4 + 4 + 4 * 4) +
    putBox (putFullBox (4 * 4 + 4 + 2 + 2 + 2 * 4 + 9 * 4 + 6 * 4 + 4) + putTrakBox avcC +
      putBox (putFullBox (5 * 4)))

-- `putU64` moves the position by 16.
def putVideoFrameSegment (frame : List UInt8) : Nat :=
  putBox (putFullBox 4 + putBox (putFullBox 4 + putFullBox 16 + putFullBox (5 * 4))) +
    putBox frame.length

-- Behind the capacity of its buffer a write throws.
def initFits (avcC : List UInt8) : Bool := putVideoInitSegment avcC ≤ 2000

def frameFits (unit : VideoDecodeUnit) (frame : List UInt8) : Bool :=
  putVideoFrameSegment frame ≤ 400 + unit.data.length

end Lengths

-- What is seen of the decoder: a segment it made, with the number of the latest
-- SourceBuffer then, and a segment appended to a SourceBuffer.
inductive MediaAct where
  | generated (latest : Nat) (segment : Segment)
  | appended (sourceBuffer : Nat) (segment : Segment)
  deriving DecidableEq

-- The SourceBuffers are numbered from 1 in the order they were made; the one
-- there is comes with its `updating`.
structure MediaSourceDecoder where
  errored : Bool
  translator : H264StreamVideoTranslator
  expectedDurationMicroseconds : ℚ
  videoSize : Nat × Nat
  sequenceNumber : Nat
  latest : Nat
  sourceBuffer : Option (Nat × Bool)
  buffers : List Segment
  needIdr : Bool
  droppedFrames : Nat
  timestampMicrosecondsShift : ℚ
  lastTimestampMicroseconds : ℚ
  deriving DecidableEq

inductive MediaEvent where
  | submit (unit : VideoDecodeUnit)
  | updateEnd (sourceBuffer : Nat)
  | error
  deriving DecidableEq

namespace MediaSourceDecoder

-- After `setup`; the sequence number is not read before it is set.
def new (fps : ℚ) (videoSize : Nat × Nat) : MediaSourceDecoder where
  errored := false
  translator := .new
  expectedDurationMicroseconds := 1000000 / fps
  videoSize := videoSize
  sequenceNumber := 0
  latest := 0
  sourceBuffer := none
  buffers := []
  needIdr := true
  droppedFrames := 0
  timestampMicrosecondsShift := 0
  lastTimestampMicroseconds := 0

def push (d : MediaSourceDecoder) (segment : Segment) : MediaSourceDecoder × List MediaAct :=
  ({ d with buffers := d.buffers ++ [segment] }, [.generated d.latest segment])

-- One round of the loop: after an append the buffer is updating.
def tryAppendDecodeUnit (d : MediaSourceDecoder) : MediaSourceDecoder × List MediaAct :=
  if d.errored then (d, [])
  else
    match d.sourceBuffer, d.buffers with
    | some (sourceBuffer, false), unit :: rest =>
      ({ d with buffers := rest, sourceBuffer := some (sourceBuffer, true) },
        [.appended sourceBuffer unit])
    | _, _ => (d, [])

def onUpdateEnd (d : MediaSourceDecoder) (ended : Nat) : MediaSourceDecoder × List MediaAct :=
  let sourceBuffer := d.sourceBuffer.map fun (sourceBuffer, updating) =>
    (sourceBuffer, if sourceBuffer = ended then false else updating)
  ({ d with sourceBuffer := sourceBuffer }).tryAppendDecodeUnit

-- Timestamps that do not increase are replaced.
def fixTimestamp (d : MediaSourceDecoder) (timestamp : ℚ) : ℚ :=
  let timestampMicroseconds := timestamp - d.timestampMicrosecondsShift
  if timestampMicroseconds ≤ d.lastTimestampMicroseconds then
    d.lastTimestampMicroseconds + d.expectedDurationMicroseconds
  else timestampMicroseconds

-- A new SourceBuffer, the init segment, and the segment of the frame.
def startSegments (d : MediaSourceDecoder) (unit : VideoDecodeUnit) (avcC chunk : List UInt8)
    (durationMicroseconds : ℚ) : MediaSourceDecoder × List MediaAct :=
  let d := { d with
    latest := d.latest + 1
    sourceBuffer := some (d.latest + 1, false)
    timestampMicrosecondsShift := unit.timestampMicroseconds
    lastTimestampMicroseconds := 0
    sequenceNumber := 1 }
  if !initFits avcC then (d, [])
  else
    Runs.andThen (d.push (.init d.videoSize.1 d.videoSize.2 avcC)) fun d =>
      -- "tried to submit non idr as a keyframe", or no room.
      if nalTypeAt chunk 4 ≠ 5 ∨ !frameFits unit chunk then (d, [])
      else
        Runs.andThen (d.push (.frame ⟨1, 0, durationMicroseconds, true, chunk⟩)) fun d =>
          ({ d with needIdr := false, droppedFrames := 0 }).tryAppendDecodeUnit

def nextSegment (d : MediaSourceDecoder) (unit : VideoDecodeUnit) (chunk : List UInt8)
    (durationMicroseconds : ℚ) : MediaSourceDecoder × List MediaAct :=
  if d.needIdr then ({ d with droppedFrames := d.droppedFrames + 1 }, [])
  else
    let d := { d with sequenceNumber := d.sequenceNumber + 1 }
    if !frameFits unit chunk then (d, [])
    else
      Runs.andThen
        (d.push (.frame ⟨d.sequenceNumber, d.lastTimestampMicroseconds, durationMicroseconds,
          false, chunk⟩)) tryAppendDecodeUnit

-- `addSourceBuffer` throws for a codec the browser does not support, when the old
-- SourceBuffer is gone already.
def submitDecodeUnit (supports : List UInt8 → Bool) (d : MediaSourceDecoder)
    (unit : VideoDecodeUnit) : MediaSourceDecoder × List MediaAct :=
  if d.errored then (d, [])
  else
    let (translator, value) := d.translator.submitDecodeUnit unit
    let d := { d with translator := translator }
    match value with
    | none | some (_, none) => (d, [])
    | some (configure, some chunk) =>
      let timestampMicroseconds := d.fixTimestamp unit.timestampMicroseconds
      let durationMicroseconds := timestampMicroseconds - d.lastTimestampMicroseconds
      let d := { d with lastTimestampMicroseconds := timestampMicroseconds }
      match configure with
      | some config =>
        if supports config.codec then
          d.startSegments unit config.description chunk durationMicroseconds
        else ({ d with sourceBuffer := none }, [])
      | none => d.nextSegment unit chunk durationMicroseconds

def step (supports : List UInt8 → Bool) (d : MediaSourceDecoder) :
    MediaEvent → MediaSourceDecoder × List MediaAct
  | .submit unit => d.submitDecodeUnit supports unit
  | .updateEnd sourceBuffer => d.onUpdateEnd sourceBuffer
  | .error => ({ d with errored := true }, [])

end MediaSourceDecoder

end Web

end BetterParsec
