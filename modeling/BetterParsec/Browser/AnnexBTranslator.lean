import BetterParsec.Browser.ByteBufferReads
import BetterParsec.Streamer.AnnexB

set_option autoImplicit false
set_option linter.all false

/-!
# The Annex B translators of the browser

`CodecStreamTranslator` of `web/stream/video/annex_b_translator.ts` and its two
subclasses. They cut a decode unit at its start codes and write the NAL units, each
after its length, into a frame buffer that grows.
-/

namespace BetterParsec

namespace Translator

open BrowserBuffer (Uint8Array)
open LittleEndian (overwrite)
open StartCodes (StartCode cut startsAt)

structure VideoDecoderConfig where
  codec : String
  description : Option (List UInt8)
  deriving DecidableEq

structure VideoDecodeUnit where
  key : Bool
  data : List UInt8

-- A byte behind the end is `undefined`, which differs from every byte.
def startsWith (buffer : List UInt8) (position : Nat) (check : List UInt8) : Bool :=
  (List.range check.length).all fun i => buffer[position + i]? = check[i]?

-- `set` of a `Uint8Array`.
def setBytes (array : List UInt8) (bytes : List UInt8) (first : Nat) : Except String (List UInt8) :=
  if first + bytes.length > array.length then .error "RangeError"
  else .ok (overwrite array first bytes)

-- A translator with the fields that its class adds.
structure CodecStreamTranslator (F : Type) where
  decoderConfig : Option VideoDecoderConfig
  currentFrame : List UInt8
  fields : F

-- The abstract methods.
structure Methods (F : Type) where
  startProcessChunk : CodecStreamTranslator F → VideoDecodeUnit → Bool
  onChunkUnit : CodecStreamTranslator F → List UInt8 → Except String (CodecStreamTranslator F × Bool)
  endChunk : CodecStreamTranslator F → Except String (CodecStreamTranslator F × Bool)

inductive Submitted where
  | failed
  | done (configure : Option VideoDecoderConfig) (chunk : Option (List UInt8))

-- The translator and the variables of `submitDecodeUnit`. `handed` are the slices that went to
-- `onChunkUnit`; the source does not keep them.
structure Scan (F : Type) where
  translator : CodecStreamTranslator F
  unitBegin : Nat
  currentPosition : Nat
  currentFrameSize : Nat
  handed : List (List UInt8)

section Submit

variable {F : Type} (methods : Methods F)

def CodecStreamTranslator.checkFrameBufferSize (translator : CodecStreamTranslator F)
    (currentSize requiredExtra : Nat) : Except String (CodecStreamTranslator F) :=
  if currentSize + requiredExtra > translator.currentFrame.length then do
    let newFrame := List.replicate ((currentSize + requiredExtra) * 2) 0
    let newFrame ← setBytes newFrame translator.currentFrame 0
    pure { translator with currentFrame := newFrame }
  else .ok translator

-- The length and the bytes of a slice.
def CodecStreamTranslator.append (translator : CodecStreamTranslator F) (currentFrameSize : Nat)
    (slice : List UInt8) : Except String (CodecStreamTranslator F) := do
  let translator ← translator.checkFrameBufferSize currentFrameSize (slice.length + 4)
  let sizeBuffer ← (BrowserBuffer.ByteBuffer.new 4 false).putU32 (UInt32.ofNat slice.length) none
  let sizeBuffer := sizeBuffer.flip
  let currentFrame ← setBytes translator.currentFrame sizeBuffer.getRemainingBuffer currentFrameSize
  let currentFrame ← setBytes currentFrame slice (currentFrameSize + 4)
  pure { translator with currentFrame := currentFrame }

def handleStartCode (data : List UInt8) (scan : Scan F) : Except String (Scan F) := do
  let slice := (data.take scan.currentPosition).drop scan.unitBegin
  let (translator, included) ← methods.onChunkUnit scan.translator slice
  let scan := { scan with translator := translator, handed := scan.handed ++ [slice] }
  if included then do
    let translator ← scan.translator.append scan.currentFrameSize slice
    pure { scan with
      translator := translator
      currentFrameSize := scan.currentFrameSize + (slice.length + 4) }
  else pure scan

def startCodeLength (data : List UInt8) (position : Nat) : Option Nat :=
  if startsWith data position [0x00, 0x00, 0x00, 0x01] then some 4
  else if startsWith data position [0x00, 0x00, 0x01] then some 3
  else none

-- The loop; every round moves the position.
def scanData (data : List UInt8) : Nat → Scan F → Except String (Scan F)
  | 0, scan => .ok scan
  | fuel + 1, scan =>
      if scan.currentPosition < data.length then
        match startCodeLength data scan.currentPosition with
        | some startCodeLength => do
            let scan ← if scan.currentPosition ≠ 0 then handleStartCode methods data scan else .ok scan
            scanData data fuel { scan with
              currentPosition := scan.currentPosition + startCodeLength
              unitBegin := scan.currentPosition + startCodeLength }
        | none => scanData data fuel { scan with currentPosition := scan.currentPosition + 1 }
      else .ok scan

-- An exception returns no chunk.
def submitDecodeUnit (translator : CodecStreamTranslator F) (decodeUnit : VideoDecodeUnit) :
    Except String (CodecStreamTranslator F × Submitted × List (List UInt8)) :=
  if translator.decoderConfig.isNone then .ok (translator, .failed, [])
  else if ¬ methods.startProcessChunk translator decodeUnit then
    .ok (translator, .done none none, [])
  else do
    let data := decodeUnit.data
    let scan ← scanData methods data data.length ⟨translator, 0, 0, 0, []⟩
    let scan ← handleStartCode methods data scan
    let (translator, reconfigure) ← methods.endChunk scan.translator
    let chunk := translator.currentFrame.take scan.currentFrameSize
    pure (translator, .done (if reconfigure then translator.decoderConfig else none) chunk,
      scan.handed)

end Submit

section H264

def h264NalType (header : UInt8) : UInt8 := header &&& 0x1F

-- `toString(16)`, with a zero in front of a single digit.
def numToHex (n : UInt8) : String :=
  let hex := Nat.toDigits 16 n.toNat
  String.ofList (if hex.length = 1 then '0' :: hex else hex)

structure H264Sps where
  profileIdc : UInt8
  constraintFlags : UInt8
  levelIdc : UInt8
  avc1 : String

def h264ParseSps (sps : BrowserBuffer.ByteBuffer) : Except String H264Sps := do
  let (nalHeader, sps) ← sps.getU8
  if nalHeader &&& 0x1F ≠ 7 then .error "Buffer does not start with an SPS NAL unit"
  else do
    let (profileIdc, sps) ← sps.getU8
    let (constraintFlags, sps) ← sps.getU8
    let (levelIdc, _) ← sps.getU8
    pure ⟨profileIdc, constraintFlags, levelIdc,
      "avc1." ++ numToHex profileIdc ++ numToHex constraintFlags ++ numToHex levelIdc⟩

-- The array is a byte longer than what is stored in it.
def h264MakeAvcC (sps pps : List UInt8) : List UInt8 :=
  [0x01, sps.getD 1 0, sps.getD 2 0, sps.getD 3 0, 0xFF, 0xE1,
    UInt8.ofNat (sps.length / 256), UInt8.ofNat sps.length] ++ sps ++
  [0x01, UInt8.ofNat (pps.length / 256), UInt8.ofNat pps.length] ++ pps ++ [0]

structure H264Fields where
  hasDescription : Bool
  pps : Option (List UInt8)
  sps : Option (List UInt8)

abbrev H264StreamVideoTranslator := CodecStreamTranslator H264Fields

-- An array of its own, with the bytes of the slice.
def ownArray (bytes : List UInt8) : Uint8Array := ⟨bytes, 0, bytes.length, by omega⟩

namespace H264StreamVideoTranslator

def startProcessChunk (translator : H264StreamVideoTranslator) (decodeUnit : VideoDecodeUnit) :
    Bool :=
  decodeUnit.key || translator.fields.hasDescription

-- The type of an empty slice is zero: `undefined & 0x1f`.
def onChunkUnit (translator : H264StreamVideoTranslator) (slice : List UInt8) :
    Except String (H264StreamVideoTranslator × Bool) :=
  let nalType := h264NalType (slice.headD 0)
  if nalType = 7 then do
    let sps ← h264ParseSps (BrowserBuffer.ByteBuffer.overArray (ownArray slice) false)
    pure ({ translator with
      fields := { translator.fields with sps := some slice }
      decoderConfig := translator.decoderConfig.map ({ · with codec := sps.avc1 }) }, false)
  else if nalType = 8 then
    .ok ({ translator with fields := { translator.fields with pps := some slice } }, false)
  else .ok (translator, true)

def endChunk (translator : H264StreamVideoTranslator) :
    Except String (H264StreamVideoTranslator × Bool) :=
  match translator.decoderConfig with
  | none => .error "UNREACHABLE"
  | some config =>
      match translator.fields.pps, translator.fields.sps with
      | some pps, some sps =>
          .ok ({ translator with
            fields := ⟨true, none, none⟩
            decoderConfig := some { config with description := some (h264MakeAvcC sps pps) } }, true)
      | _, _ => .ok (translator, false)

def methods : Methods H264Fields := ⟨startProcessChunk, onChunkUnit, endChunk⟩

end H264StreamVideoTranslator

end H264

section H265

def h265NalType (header : UInt8) : UInt8 := (header >>> 1) &&& 0x3F

def h265Array (nalUnitType : UInt8) (set : List UInt8) : List UInt8 :=
  [nalUnitType, 0, 1, UInt8.ofNat (set.length / 256), UInt8.ofNat set.length] ++ set

-- A byte behind the end of the SPS is stored as zero.
def h265MakeHvcC (vps sps pps : List UInt8) : List UInt8 :=
  let header : List UInt8 :=
    [1, (sps.getD 1 0 >>> 1) &&& 0x3F, 0, 0, 0, 0, 0, 0, 0, 0, 0, 0, sps.getD 12 0, 0xF0, 0x00, 0xFC,
      0xFD, 0xF8, 0xF8, 0x00, 0x00, 0x0F, 3]
  header ++ h265Array 0x20 vps ++ h265Array 0x21 sps ++ h265Array 0x22 pps

structure H265Fields where
  hasDescription : Bool
  vps : Option (List UInt8)
  sps : Option (List UInt8)
  pps : Option (List UInt8)

abbrev H265StreamVideoTranslator := CodecStreamTranslator H265Fields

namespace H265StreamVideoTranslator

def startProcessChunk (translator : H265StreamVideoTranslator) (decodeUnit : VideoDecodeUnit) :
    Bool :=
  decodeUnit.key || translator.fields.hasDescription

def onChunkUnit (translator : H265StreamVideoTranslator) (slice : List UInt8) :
    Except String (H265StreamVideoTranslator × Bool) :=
  let nalType := h265NalType (slice.headD 0)
  if nalType = 32 then
    .ok ({ translator with fields := { translator.fields with vps := some slice } }, false)
  else if nalType = 33 then
    .ok ({ translator with fields := { translator.fields with sps := some slice } }, false)
  else if nalType = 34 then
    .ok ({ translator with fields := { translator.fields with pps := some slice } }, false)
  else .ok (translator, true)

def endChunk (translator : H265StreamVideoTranslator) :
    Except String (H265StreamVideoTranslator × Bool) :=
  match translator.decoderConfig with
  | none => .error "UNREACHABLE"
  | some config =>
      match translator.fields.vps, translator.fields.sps, translator.fields.pps with
      | some vps, some sps, some pps =>
          .ok ({ translator with
            fields := ⟨true, none, none, none⟩
            decoderConfig := some { config with
              description := some (h265MakeHvcC vps sps pps) } }, true)
      | _, _, _ => .ok (translator, false)

def methods : Methods H265Fields := ⟨startProcessChunk, onChunkUnit, endChunk⟩

end H265StreamVideoTranslator

end H265

end Translator

end BetterParsec
