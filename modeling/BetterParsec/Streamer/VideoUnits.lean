import BetterParsec.Streamer.Outbound

set_option autoImplicit false
set_option linter.all false

/-!
# Video over the WebSocket

`send_video_unit` of `transport/web_socket/mod.rs`: the frame it writes for a decode
unit of the host.
-/

namespace BetterParsec

namespace ByteBuffer

def putU32 (data : UInt32) : Write Bool := fun b =>
  putU8Array
    (if b.littleEndian then LittleEndian.bytes 4 data.toNat else BigEndian.bytes 4 data.toNat) b

end ByteBuffer

namespace WebSocketTransportSender

open ByteBuffer OutboundPacket

inductive FrameType where
  | idr
  | pFrame
  deriving DecidableEq

-- The timestamp is a number of nanoseconds, of which `as_micros` is the whole microseconds.
structure VideoDecodeUnit where
  frameType : FrameType
  timestamp : Nat
  buffers : List (List UInt8)

inductive DecodeResult where
  | ok
  | needIdr
  deriving DecidableEq

inductive TransportError where
  | channelClosed
  | closed
  deriving DecidableEq

-- What is given to the event channel, and the result with the flag it leaves.
structure Sending where
  frame : Option (List UInt8)
  result : Except TransportError DecodeResult
  needsIdr : Bool

def FrameType.byte : FrameType → UInt8
  | .idr => 1
  | .pFrame => 0

def VideoDecodeUnit.timestampMicros (unit : VideoDecodeUnit) : UInt32 :=
  UInt32.ofNat (unit.timestamp / 1000)

def videoHeader (unit : VideoDecodeUnit) : Write Unit := do
  let _ ← putU8 TransportChannelId.hostVideo
  let _ ← putU8 unit.frameType.byte
  let _ ← putU32 unit.timestampMicros

-- `receiving` says whether the other end of the event channel is there.
def sendVideoUnit (unit : VideoDecodeUnit) (receiving needsIdr : Bool) : Option Sending := do
  let (_, byteBuffer) ← videoHeader unit (ByteBuffer.new (List.replicate 6 0))
  let newBuffer := unit.buffers.foldl (· ++ ·) byteBuffer.buffer
  if !receiving then pure ⟨none, .error .closed, needsIdr⟩
  else if needsIdr then pure ⟨some newBuffer, .ok .needIdr, false⟩
  else pure ⟨some newBuffer, .ok .ok, false⟩

def VideoDecodeUnit.data (unit : VideoDecodeUnit) : List UInt8 := unit.buffers.flatten

-- What the frame holds behind its channel.
def VideoDecodeUnit.payload (unit : VideoDecodeUnit) : List UInt8 :=
  unit.frameType.byte :: (BigEndian.bytes 4 unit.timestampMicros.toNat ++ unit.data)

@[simp] theorem VideoDecodeUnit.length_payload (unit : VideoDecodeUnit) :
    unit.payload.length = unit.data.length + 5 := by
  rw [payload, List.length_cons, List.length_append, BigEndian.length_bytes]
  omega

theorem putU32_filled {b : ByteBuffer} {front : List UInt8} {left : Nat}
    (filled : Filled b front left) (data : UInt32) (fits : 4 ≤ left) :
    ∃ b', putU32 data b = some (true, b') ∧
      Filled b' (front ++ BigEndian.bytes 4 data.toNat) (left - 4) := by
  have put := putU8Array_filled filled (BigEndian.bytes 4 data.toNat) (by simpa using fits)
  rw [BigEndian.length_bytes] at put
  rw [putU32, filled.bigEndian]
  exact put

theorem videoHeader_eq (unit : VideoDecodeUnit) :
    ∃ b, videoHeader unit (ByteBuffer.new (List.replicate 6 0)) = some ((), b) ∧
      b.buffer = [TransportChannelId.hostVideo, unit.frameType.byte] ++
        BigEndian.bytes 4 unit.timestampMicros.toNat := by
  obtain ⟨channel, putChannel, filledChannel⟩ :=
    putU8Array_filled (filled_new 6) [TransportChannelId.hostVideo] (by decide)
  obtain ⟨kind, putKind, filledKind⟩ :=
    putU8Array_filled filledChannel [unit.frameType.byte] (by simp)
  obtain ⟨full, putTime, filledTime⟩ := putU32_filled filledKind unit.timestampMicros (by simp)
  have start : ByteBuffer.new (List.replicate 6 0) = ByteBuffer.new (resize [] 6) := rfl
  refine ⟨full, ?_, ?_⟩
  · simp only [videoHeader, start, bind, StateT.bind, Option.bind_some, putU8, putChannel, putKind,
      putTime]
    rfl
  · rw [filledTime.buffer]
    simp

/-- A unit is framed by its channel, its type and the low 32 bits of its microseconds. -/
theorem sendVideoUnit_eq (unit : VideoDecodeUnit) (receiving needsIdr : Bool) :
    ∃ sending, sendVideoUnit unit receiving needsIdr = some sending ∧
      sending.frame =
        if receiving then some (TransportChannelId.hostVideo :: unit.payload) else none := by
  obtain ⟨b, header, buffer⟩ := videoHeader_eq unit
  have frame : unit.buffers.foldl (· ++ ·) b.buffer =
      TransportChannelId.hostVideo :: unit.payload := by
    have joined : unit.buffers.foldl (· ++ ·) b.buffer = b.buffer ++ unit.buffers.flatten := by
      simpa using (List.foldl_append_eq_append (f := id) : unit.buffers.foldl _ b.buffer = _)
    rw [joined, buffer]
    simp [VideoDecodeUnit.payload, VideoDecodeUnit.data]
  simp only [sendVideoUnit, header, frame, bind, Option.bind_some]
  cases receiving with
  | false => exact ⟨_, rfl, rfl⟩
  | true =>
    cases needsIdr with
    | false => exact ⟨_, rfl, rfl⟩
    | true => exact ⟨_, rfl, rfl⟩

end WebSocketTransportSender

end BetterParsec
