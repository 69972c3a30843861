import BetterParsec.Browser.TranslatorDescription
import BetterParsec.Library.Runs

set_option autoImplicit false
set_option linter.all false

/-!
# The decoder of WebCodecs

`VideoDecoderPipe` of `web/stream/video/video_decoder_pipe.ts`, directly or behind a translator,
with the calls it makes on its `VideoDecoder`. The hints in a configuration are left out; `setup`
is cut where it waits.
-/

namespace BetterParsec

namespace WebCodecs

open Translator (VideoDecodeUnit VideoDecoderConfig Submitted H264StreamVideoTranslator
  H265StreamVideoTranslator)

inductive Codec where
  | h264
  | h264High8444
  | h265
  | h265Main10
  | h265Rext8444
  | h265Rext10444
  | av1Main8
  | av1Main10
  | av1High8444
  | av1High10444
  deriving DecidableEq

-- `VIDEO_DECODER_CODECS_IN_BAND`.
def Codec.inBand : Codec → String
  | .h264 => "avc3.42E01E"
  | .h264High8444 => "avc3.640032"
  | .h265 => "hev1.1.6.L93.B0"
  | .h265Main10 => "hev1.2.4.L120.90"
  | .h265Rext8444 => "hev1.6.6.L93.90"
  | .h265Rext10444 => "hev1.6.10.L120.90"
  | .av1Main8 => "av01.0.04M.08"
  | .av1Main10 => "av01.0.04M.10"
  | .av1High8444 => "av01.0.08M.08"
  | .av1High10444 => "av01.0.08M.10"

-- `VIDEO_DECODER_CODECS_OUT_OF_BAND`.
def Codec.outOfBand : Codec → String
  | .h264 => "avc1.42E01E"
  | .h264High8444 => "avc1.640032"
  | .h265 => "hvc1.1.6.L93.B0"
  | .h265Main10 => "hvc1.2.4.L120.90"
  | .h265Rext8444 => "hvc1.6.6.L93.90"
  | .h265Rext10444 => "hvc1.6.10.L120.90"
  | .av1Main8 => "av01.0.04M.08"
  | .av1Main10 => "av01.0.04M.10"
  | .av1High8444 => "av01.0.08M.08"
  | .av1High10444 => "av01.0.08M.10"

inductive StreamTranslator where
  | h264 (translator : H264StreamVideoTranslator)
  | h265 (translator : H265StreamVideoTranslator)

-- The translator there is for a codec.
def Codec.streamTranslator : Codec → Option StreamTranslator
  | .h264 | .h264High8444 => some (.h264 .new)
  | .h265 | .h265Main10 | .h265Rext8444 | .h265Rext10444 => some (.h265 .new)
  | .av1Main8 | .av1Main10 | .av1High8444 | .av1High10444 => none

namespace StreamTranslator

def decoderConfig : StreamTranslator → Option VideoDecoderConfig
  | .h264 translator => translator.decoderConfig
  | .h265 translator => translator.decoderConfig

def setBaseConfig (config : VideoDecoderConfig) : StreamTranslator → StreamTranslator
  | .h264 translator => .h264 { translator with decoderConfig := some config }
  | .h265 translator => .h265 { translator with decoderConfig := some config }

-- `this.sps` is assigned before the SPS is parsed.
def assigned (translator : H264StreamVideoTranslator) (slice : List UInt8) :
    H264StreamVideoTranslator :=
  { translator with fields := { translator.fields with sps := some slice } }

-- The error is what a call leaves that throws; behind H.265 none does.
def submitDecodeUnit (decodeUnit : VideoDecodeUnit) :
    StreamTranslator → Except StreamTranslator (StreamTranslator × Submitted)
  | .h264 translator =>
      match Translator.submitDecodeUnit H264StreamVideoTranslator.methods translator decodeUnit with
      | .ok (next, submitted, _) => .ok (.h264 next, submitted)
      | .error _ =>
          .error (.h264 (Translator.leftBy H264StreamVideoTranslator.methods assigned
            decodeUnit.data decodeUnit.data.length ⟨translator, 0, 0, 0, []⟩))
  | .h265 translator =>
      match Translator.submitDecodeUnit H265StreamVideoTranslator.methods translator decodeUnit with
      | .ok (next, submitted, _) => .ok (.h265 next, submitted)
      | .error _ => .error (.h265 translator)

end StreamTranslator

-- `number` counts the calls from outside; the source does not keep it.
structure DecodeUnit where
  number : Nat
  content : VideoDecodeUnit
  timestampMicroseconds : Int
  durationMicroseconds : Int

structure EncodedVideoChunk where
  number : Nat
  key : Bool
  timestamp : Int
  duration : Int
  data : List UInt8
  deriving DecidableEq

def DecodeUnit.chunk (decodeUnit : DecodeUnit) (data : List UInt8) : EncodedVideoChunk where
  number := decodeUnit.number
  key := decodeUnit.content.key
  timestamp := decodeUnit.timestampMicroseconds
  duration := decodeUnit.durationMicroseconds
  data := data

-- The calls on the `VideoDecoder`.
inductive Call where
  | reset
  | configure (config : VideoDecoderConfig)
  | decode (chunk : EncodedVideoChunk)
  deriving DecidableEq

inductive CodecState where
  | unconfigured
  | configured (keyRequired : Bool)
  deriving DecidableEq

namespace CodecState

-- Whether `decode` returns.
def takes : CodecState → EncodedVideoChunk → Bool
  | .unconfigured, _ => false
  | .configured keyRequired, chunk => chunk.key || !keyRequired

def after (state : CodecState) : Call → CodecState
  | .reset => .unconfigured
  | .configure _ => .configured true
  | .decode chunk => if state.takes chunk then .configured false else state

end CodecState

-- Where `setup` stands: it has asked for a configuration and that many attempts are left, or it is
-- to go on behind `trySetConfig`.
inductive Setup where
  | idle
  | trying (codec : Codec) (outOfBand : Bool) (attempts : Nat)
  | tried (codec : Codec) (outOfBand : Bool)
  | ended
  deriving DecidableEq

-- The translator writes into the configuration of the pipe, which is the same object.
structure VideoDecoderPipe where
  setup : Setup
  fps : Nat
  errored : Bool
  config : Option VideoDecoderConfig
  translator : Option StreamTranslator
  decoder : CodecState
  decoderSetupFinished : Bool
  requestedIdr : Bool
  needsKeyFrame : Bool
  bufferedUnits : List DecodeUnit

namespace VideoDecoderPipe

def new : VideoDecoderPipe where
  setup := .idle
  fps := 0
  errored := false
  config := none
  translator := none
  decoder := .unconfigured
  decoderSetupFinished := false
  requestedIdr := false
  needsKeyFrame := true
  bufferedUnits := []

def call (pipe : VideoDecoderPipe) (calls : List Call) : VideoDecoderPipe × List Call :=
  ({ pipe with decoder := calls.foldl CodecState.after pipe.decoder }, calls)

def reset (pipe : VideoDecoderPipe) : VideoDecoderPipe × List Call :=
  match pipe.translator with
  | none =>
      { pipe with needsKeyFrame := true }.call
        (.reset :: (pipe.config.map Call.configure).toList)
  | some translator =>
      match pipe.config with
      | some config => ({ pipe with translator := some (translator.setBaseConfig config) }, [])
      | none => (pipe, [])

-- It is called once.
def beginSetup (pipe : VideoDecoderPipe) (codec : Codec) (fps : Nat) : VideoDecoderPipe :=
  if pipe.setup = .idle then { pipe with fps := fps, setup := .trying codec false 3 } else pipe

-- The answer to `isConfigSupported`; `trySetConfig` asks three times.
def answer (pipe : VideoDecoderPipe) (supported : Bool) : VideoDecoderPipe :=
  match pipe.setup with
  | .trying codec outOfBand attempts =>
      if supported then
        { pipe with
          config := some ⟨if outOfBand then codec.outOfBand else codec.inBand, none⟩
          setup := .tried codec outOfBand }
      else
        { pipe with
          config := none
          setup :=
            if attempts ≤ 1 then .tried codec outOfBand
            else .trying codec outOfBand (attempts - 1) }
  | _ => pipe

def finishSetup (pipe : VideoDecoderPipe) (config : VideoDecoderConfig) :
    VideoDecoderPipe × List Call :=
  let translator := pipe.translator.map (·.setBaseConfig config)
  let (pipe, calls) := { pipe with translator := translator }.reset
  ({ pipe with decoderSetupFinished := true, setup := .ended }, calls)

def resume (pipe : VideoDecoderPipe) : VideoDecoderPipe × List Call :=
  match pipe.setup with
  | .tried codec outOfBand =>
      match pipe.config with
      | some config => pipe.finishSetup config
      | none =>
          match if outOfBand then none else codec.streamTranslator with
          | some translator =>
              ({ pipe with translator := some translator, setup := .trying codec true 3 }, [])
          | none => ({ pipe with errored := true, setup := .ended }, [])
  | _ => (pipe, [])

-- With whether it throws.
def decode (pipe : VideoDecoderPipe) (chunk : EncodedVideoChunk) :
    (VideoDecoderPipe × Bool) × List Call :=
  let threw := !pipe.decoder.takes chunk
  let (pipe, calls) := pipe.call [.decode chunk]
  ((pipe, threw), calls)

-- `submitDecodeUnit` behind the buffered units.
def process (pipe : VideoDecoderPipe) (decodeUnit : DecodeUnit) :
    (VideoDecoderPipe × Bool) × List Call :=
  match pipe.translator with
  | some translator =>
      match translator.submitDecodeUnit decodeUnit.content with
      | .error left => (({ pipe with translator := some left, config := left.decoderConfig }, true), [])
      | .ok (next, value) =>
          let pipe := { pipe with translator := some next, config := next.decoderConfig }
          match value with
          | .failed => (({ pipe with errored := true }, false), [])
          | .done _ none => ((pipe, false), [])
          | .done none (some chunk) => pipe.decode (decodeUnit.chunk chunk)
          | .done (some config) (some chunk) =>
              let (pipe, calls) := pipe.call [.reset, .configure config]
              let (last, more) := { pipe with requestedIdr := false }.decode (decodeUnit.chunk chunk)
              (last, calls ++ more)
  | none =>
      if !decodeUnit.content.key && pipe.needsKeyFrame then ((pipe, false), [])
      else
        { pipe with needsKeyFrame := false, requestedIdr := false }.decode
          (decodeUnit.chunk decodeUnit.content.data)

-- What comes behind an exception is not done.
def unlessThrown (next : VideoDecoderPipe → DecodeUnit → (VideoDecoderPipe × Bool) × List Call)
    (state : VideoDecoderPipe × Bool) (decodeUnit : DecodeUnit) :
    (VideoDecoderPipe × Bool) × List Call :=
  if state.2 then (state, []) else next state.1 decodeUnit

-- The call for a buffered unit, which finds the setup finished and nothing buffered.
def again (pipe : VideoDecoderPipe) (decodeUnit : DecodeUnit) :
    (VideoDecoderPipe × Bool) × List Call :=
  if pipe.errored then ((pipe, false), []) else pipe.process decodeUnit

def replay (pipe : VideoDecoderPipe) : (VideoDecoderPipe × Bool) × List Call :=
  Runs.run (unlessThrown again) ({ pipe with bufferedUnits := [] }, false) pipe.bufferedUnits

def submitDecodeUnit (pipe : VideoDecoderPipe) (decodeUnit : DecodeUnit) :
    VideoDecoderPipe × List Call :=
  if pipe.errored then (pipe, [])
  else if !pipe.decoderSetupFinished then
    ({ pipe with bufferedUnits := pipe.bufferedUnits ++ [decodeUnit] }, [])
  else
    let ((pipe, _), calls) :=
      Runs.andThen pipe.replay (unlessThrown process · decodeUnit)
    (pipe, calls)

-- With the answer. `base` is what the base requests, if it can.
def pollRequestIdr (pipe : VideoDecoderPipe) (decodeQueueSize : Nat) (base : Bool) :
    (VideoDecoderPipe × Bool) × List Call :=
  let behind : Bool := 200 * pipe.fps < decodeQueueSize * 1000 ∧ decodeQueueSize > 2
  let flushed := behind && !pipe.requestedIdr
  let (pipe, calls) := if flushed then pipe.reset else (pipe, [])
  let requestIdr := flushed || base
  (({ pipe with requestedIdr := pipe.requestedIdr || requestIdr }, requestIdr), calls)

end VideoDecoderPipe

inductive Event where
  | setup (codec : Codec) (fps : Nat)
  | answer (supported : Bool)
  | resume
  | submit (content : VideoDecodeUnit) (timestampMicroseconds durationMicroseconds : Int)
  | pollRequestIdr (decodeQueueSize : Nat) (base : Bool)
  -- `onError`, which is called by the decoder.
  | error

-- The pipe and the number of calls of `submitDecodeUnit`.
structure Session where
  pipe : VideoDecoderPipe
  submitted : Nat

namespace Session

def new : Session := ⟨.new, 0⟩

def step (session : Session) : Event → Session × List Call
  | .setup codec fps => ({ session with pipe := session.pipe.beginSetup codec fps }, [])
  | .answer supported => ({ session with pipe := session.pipe.answer supported }, [])
  | .resume =>
      let (pipe, calls) := session.pipe.resume
      ({ session with pipe := pipe }, calls)
  | .submit content timestamp duration =>
      let (pipe, calls) :=
        session.pipe.submitDecodeUnit ⟨session.submitted, content, timestamp, duration⟩
      (⟨pipe, session.submitted + 1⟩, calls)
  | .pollRequestIdr decodeQueueSize base =>
      let ((pipe, _), calls) := session.pipe.pollRequestIdr decodeQueueSize base
      ({ session with pipe := pipe }, calls)
  | .error => ({ session with pipe := { session.pipe with errored := true } }, [])

end Session

-- The calls on the decoder in a run.
def callsOf (events : List Event) : List Call := (Runs.run Session.step .new events).2

end WebCodecs

end BetterParsec
