import BetterParsec.Library.JsNumber
import BetterParsec.Video.Receiver
import BetterParsec.Wire.ControlMessages

set_option autoImplicit false
set_option linter.all false

/-!
# The wire codec of the browser

`fec_wire.ts`: the parsers and the chunker of the browser, against those of
`fec_wire.rs`.  Numbers read from a `DataView` have the width they are read
with; what the browser computes with them is computed on integers.
-/

namespace BetterParsec

namespace Web

def sourceV2HeaderSize : Nat := 15

def repairV2HeaderSize : Nat := 21

def chunkHeaderV2Size : Nat := 21

def sourceMessageMax : Nat := 1200

def sourcePayloadMax : Nat := 1185

def repairPayloadMax : Nat := 1200

def repairMessageMax : Nat := 1221

def chunkV2FragmentMax : Nat := 1164

def frameMaxBytes : Nat := 4 * 1024 * 1024

def chunkCountMax : Nat := 4096

inductive VersionedFecSymbol where
  | v1 (symbol : Symbol)
  | v2 (epoch : UInt32) (symbol : Symbol)
  deriving DecidableEq

structure ChunkHeaderV2 where
  frameId : UInt32
  chunkIndex : UInt16
  chunkCount : UInt16
  frameType : UInt8
  timestampUs : UInt32
  encodedFrameLen : UInt32
  encodedFrameCrc32 : UInt32
  deriving DecidableEq

inductive Control where
  | subscribe (epoch : UInt32)
  | ack (epoch highestSeq : UInt32)
  | needsIdr (epoch : UInt32) (reason : UInt8)
  deriving DecidableEq

open JsNumber in
def crcRound (crc : Int) : Int :=
  bitXor (shiftRightUnsigned crc 1) (if bitAnd crc 1 ≠ 0 then 0xEDB88320 else 0)

open JsNumber in
def crc32 (bytes : List UInt8) : Int :=
  let crc := bytes.foldl (fun crc (byte : UInt8) => crcRound^[8] (bitXor crc byte.toNat)) 0xFFFFFFFF
  shiftRightUnsigned (bitXor crc 0xFFFFFFFF) 0

-- The number comes from a `DataView`, so that it is an integer of 32 bits.
def nonZeroEpoch (epoch : UInt32) : Bool := epoch.toNat > 0 && epoch.toNat ≤ 0xFFFFFFFF

-- The quotient of the source is a double; it is rounded up to the same integer.
def ceilDiv (n d : Nat) : Nat := (n + d - 1) / d

def validChunk (frameType chunkIndex chunkCount frameLen fragmentLength : Nat) : Bool :=
  let expectedCount := max 1 (ceilDiv frameLen chunkV2FragmentMax)
  let expectedFragmentLength : Int :=
    if chunkIndex + 1 = chunkCount then
      (frameLen : Int) - chunkV2FragmentMax * ((chunkCount : Int) - 1)
    else chunkV2FragmentMax
  (frameType = 0 || frameType = 1) && chunkCount ≥ 1 && chunkCount ≤ chunkCountMax &&
    chunkIndex < chunkCount && frameLen ≤ frameMaxBytes && chunkCount = expectedCount &&
    (fragmentLength : Int) = expectedFragmentLength

def parseChunkV2Bytes (bytes : List UInt8) : Option ChunkHeaderV2 :=
  if bytes.length < chunkHeaderV2Size ∨ bytes.length > sourcePayloadMax then none
  else
    let chunkIndex := u16At bytes 4
    let chunkCount := u16At bytes 6
    let frameType := bytes.getD 8 0
    let frameLen := u32At bytes 13
    let fragment := bytes.drop chunkHeaderV2Size
    if !validChunk frameType.toNat chunkIndex.toNat chunkCount.toNat frameLen.toNat
        fragment.length then none
    else some
      { frameId := u32At bytes 0
        chunkIndex := chunkIndex
        chunkCount := chunkCount
        frameType := frameType
        timestampUs := u32At bytes 9
        encodedFrameLen := frameLen
        encodedFrameCrc32 := u32At bytes 17 }

def parseSourceV2 (bytes : List UInt8) : Option VersionedFecSymbol :=
  if bytes.length < sourceV2HeaderSize ∨ bytes.length > sourceMessageMax then none
  else
    let epoch := u32At bytes 1
    let length := (u16At bytes 9).toNat
    let payload := bytes.drop sourceV2HeaderSize
    if !nonZeroEpoch epoch ∨ length > sourcePayloadMax ∨
        bytes.length ≠ sourceV2HeaderSize + length ∨
        crc32 payload ≠ ((u32At bytes 11).toNat : Int) ∨ (parseChunkV2Bytes payload).isNone then
      none
    else some (.v2 epoch (.source (u32At bytes 5) payload))

def parseRepairV2 (bytes : List UInt8) : Option VersionedFecSymbol :=
  if bytes.length < repairV2HeaderSize ∨ bytes.length > repairMessageMax then none
  else
    let epoch := u32At bytes 1
    let length := (u16At bytes 15).toNat
    let payload := bytes.drop repairV2HeaderSize
    if !nonZeroEpoch epoch ∨ length > repairPayloadMax ∨
        bytes.length ≠ repairV2HeaderSize + length ∨
        crc32 payload ≠ ((u32At bytes 17).toNat : Int) then none
    else some (.v2 epoch (.repair (u16At bytes 5) (u32At bytes 7) (u32At bytes 11) payload))

def parseSymbolMessage (bytes : List UInt8) : Option VersionedFecSymbol :=
  match bytes with
  | [] => none
  | kind :: _ =>
    if kind = 0x00 then
      if bytes.length < 5 then none else some (.v1 (.source (u32At bytes 1) (bytes.drop 5)))
    else if kind = 0x01 then
      if bytes.length < 11 then none
      else some (.v1 (.repair (u16At bytes 1) (u32At bytes 3) (u32At bytes 7) (bytes.drop 11)))
    else if kind = 0x02 then parseSourceV2 bytes
    else if kind = 0x03 then parseRepairV2 bytes
    else none

-- A chunk is written into a buffer of zeros, field by field.
def chunkV2Buffer (frameId : UInt32) (frameType : UInt8) (timestampUs : UInt32)
    (data fragment : List UInt8) (index count : Nat) : List UInt8 :=
  let buf := List.replicate (chunkHeaderV2Size + fragment.length) 0
  let buf := LittleEndian.overwrite buf 0 (leU32 frameId)
  let buf := LittleEndian.overwrite buf 4 (leU16 (UInt16.ofNat index))
  let buf := LittleEndian.overwrite buf 6 (leU16 (UInt16.ofNat count))
  let buf := LittleEndian.overwrite buf 8 [frameType]
  let buf := LittleEndian.overwrite buf 9 (leU32 timestampUs)
  let buf := LittleEndian.overwrite buf 13 (leU32 (UInt32.ofNat data.length))
  let buf := LittleEndian.overwrite buf 17 (LittleEndian.bytes 4 (crc32 data).toNat)
  LittleEndian.overwrite buf chunkHeaderV2Size fragment

def chunkFrameV2 (frameId : UInt32) (isKey : Bool) (timestampUs : UInt32) (data : List UInt8) :
    Except String (List (List UInt8)) :=
  if data.length > frameMaxBytes then .error "frame exceeds v2 wire cap"
  else
    let frameType : UInt8 := if isKey then 1 else 0
    let count := max 1 (ceilDiv data.length chunkV2FragmentMax)
    if count > chunkCountMax then .error "frame requires too many chunks"
    else .ok ((List.range count).map fun index =>
      let fragmentStart := index * chunkV2FragmentMax
      let fragmentEnd := min (fragmentStart + chunkV2FragmentMax) data.length
      let fragment := (data.drop fragmentStart).take (fragmentEnd - fragmentStart)
      chunkV2Buffer frameId frameType timestampUs data fragment index count)

def parseControlMessage (bytes : List UInt8) : Option Control :=
  if bytes.length < 5 then none
  else
    let epoch := u32At bytes 1
    if !nonZeroEpoch epoch then none
    else if bytes.getD 0 0 = 0x82 ∧ bytes.length = 5 then some (.subscribe epoch)
    else if bytes.getD 0 0 = 0x81 ∧ bytes.length = 9 then some (.ack epoch (u32At bytes 5))
    else if bytes.getD 0 0 = 0x80 ∧ bytes.length = 6 then
      some (.needsIdr epoch (bytes.getD 5 0))
    else none

end Web

end BetterParsec
