import BetterParsec.Input.InputWire

set_option autoImplicit false
set_option linter.all false

/-!
# Packets to the browser

`OutboundPacket::serialize` of `transport/mod.rs` over the writing side of
`buffer.rs`, and the frame `send_packet` of the WebSocket transport makes of it.
-/

namespace BetterParsec

open LittleEndian (overwrite overwrite_zeros slice)

-- No result is a panic.
abbrev Write := StateT ByteBuffer Option

namespace ByteBuffer

-- The flag says whether there was room.
def putU8Array (array : List UInt8) : Write Bool := fun b =>
  if b.position ≤ b.buffer.length then
    if b.buffer.length - b.position < array.length then some (false, b)
    else some (true,
      { b with
        position := b.position + array.length
        buffer := overwrite b.buffer b.position array })
  else none

def putU8 (data : UInt8) : Write Bool := putU8Array [data]

def putU16 (data : UInt16) : Write Bool := fun b =>
  putU8Array
    (if b.littleEndian then LittleEndian.bytes 2 data.toNat else BigEndian.bytes 2 data.toNat) b

def putUtf8Raw (text : List Char) : Write Bool := putU8Array (Utf8.encode text)

def flip : Write Unit := fun b => some ((), { b with limit := b.position, position := 0 })

end ByteBuffer

namespace TransportChannelId

def controller0 : UInt8 := 10

end TransportChannelId

-- What a JSON writer gives; a JSON text has no byte order mark in front.
structure JsonText where
  text : List Char
  unmarked : text.head? ≠ some '\uFEFF'

-- `serde_json::to_string` of the two kinds of messages, which may fail.
structure MessageWriter (Message Stats : Type) where
  general : Message → Option JsonText
  stats : Stats → Option JsonText

inductive OutboundPacket (Message Stats : Type) where
  | general (message : Message)
  | stats (update : Stats)
  | controllerRumble (controllerNumber : UInt8) (lowFrequencyMotor highFrequencyMotor : UInt16)
  | controllerTriggerRumble (controllerNumber : UInt8) (leftTriggerMotor rightTriggerMotor : UInt16)
  | rtt (sequenceNumber : UInt16)
  deriving DecidableEq

structure ByteRange where
  start : Nat
  stop : Nat
  deriving DecidableEq

-- `Vec::resize` with zeros.
def resize (bytes : List UInt8) (length : Nat) : List UInt8 :=
  bytes.take length ++ List.replicate (length - bytes.length) 0

namespace OutboundPacket

-- The channel and the range, if there is something to send, and the buffer afterwards.
abbrev Serialized := Option (UInt8 × ByteRange) × List UInt8

def fill (channel : UInt8) (raw : List UInt8) (write : Write Unit) : Option Serialized :=
  (write (ByteBuffer.new raw)).map fun (_, b) => (some (channel, ⟨0, b.limit⟩), b.buffer)

open ByteBuffer in
-- The length field is the length `as u16`.
def serializeText (channel : UInt8) (json : Option JsonText) (raw : List UInt8) :
    Option Serialized :=
  match json with
  | none => some (none, raw)
  | some json =>
    let length := (Utf8.encode json.text).length
    fill channel (resize raw (length + 2)) do
      let _ ← putU16 (UInt16.ofNat length)
      let _ ← putUtf8Raw json.text
      flip

open ByteBuffer in
-- The type byte is 0 for both kinds of rumble.
def serializeMotors (number : UInt8) (first second : UInt16) (raw : List UInt8) :
    Option Serialized :=
  fill (TransportChannelId.controller0 + number) (resize raw 6) do
    let _ ← putU8 0
    let _ ← putU8 number
    let _ ← putU16 first
    let _ ← putU16 second
    flip

variable {Message Stats : Type}

open ByteBuffer in
def serialize (json : MessageWriter Message Stats) (packet : OutboundPacket Message Stats)
    (raw : List UInt8) : Option Serialized :=
  match packet with
  | .general message => serializeText TransportChannelId.general (json.general message) raw
  | .stats update => serializeText TransportChannelId.stats (json.stats update) raw
  | .controllerRumble number low high => serializeMotors number low high raw
  | .controllerTriggerRumble number left right => serializeMotors number left right raw
  | .rtt sequenceNumber =>
    -- Not flipped: the limit is still the length.
    fill TransportChannelId.rtt (resize raw 3) do
      let _ ← putU8 0
      let _ ← putU16 sequenceNumber
      pure ()

-- `copy_within`, which panics out of range.
def copyWithin (bytes : List UInt8) (range : ByteRange) (dest : Nat) : Option (List UInt8) :=
  if range.start ≤ range.stop ∧ range.stop ≤ bytes.length ∧
      dest + (range.stop - range.start) ≤ bytes.length then
    some (overwrite bytes dest (slice bytes range.start (range.stop - range.start)))
  else none

-- The id in front of the range, which is moved up when it starts the buffer.
def withId (id : UInt8) (range : ByteRange) (newBuffer : List UInt8) : Option (List UInt8) := do
  let (newBuffer, start) ←
    if range.start = 0 then do
      let moved ← copyWithin (resize newBuffer (range.stop - range.start + 1)) range
        (range.start + 1)
      pure (moved, range.start + 1)
    else pure (newBuffer, range.start)
  if start - 1 < newBuffer.length then some (newBuffer.set (start - 1) id) else none

/-- The frame handed to the WebSocket: none is a panic, some none a packet that is dropped. -/
def sendPacket (json : MessageWriter Message Stats) (packet : OutboundPacket Message Stats) :
    Option (Option (List UInt8)) := do
  match ← packet.serialize json [] with
  | (none, _) => pure none
  | (some (id, range), newBuffer) => pure (some (← withId id range newBuffer))

section Writing

open ByteBuffer

-- A buffer of zeros of which the front is written.
structure Filled (b : ByteBuffer) (front : List UInt8) (left : Nat) : Prop where
  position : b.position = front.length
  limit : b.limit = front.length + left
  bigEndian : b.littleEndian = false
  buffer : b.buffer = front ++ List.replicate left 0

theorem filled_new (length : Nat) : Filled (ByteBuffer.new (resize [] length)) [] length where
  position := rfl
  limit := by simp [ByteBuffer.new, resize]
  bigEndian := rfl
  buffer := by simp [ByteBuffer.new, resize]

theorem putU8Array_filled {b : ByteBuffer} {front : List UInt8} {left : Nat}
    (filled : Filled b front left) (array : List UInt8) (fits : array.length ≤ left) :
    ∃ b', putU8Array array b = some (true, b') ∧
      Filled b' (front ++ array) (left - array.length) := by
  have position := filled.position
  have length : b.buffer.length = front.length + left := by
    rw [filled.buffer, List.length_append, List.length_replicate]
  refine ⟨_, (if_pos (by omega)).trans (if_neg (by omega)), ?_⟩
  constructor
  case position => exact (congrArg (· + array.length) position).trans List.length_append.symm
  case limit =>
    have limit := filled.limit
    rw [List.length_append]
    change b.limit = _
    omega
  case bigEndian => exact filled.bigEndian
  case buffer =>
    have written := overwrite_zeros front array b.position left position.symm
    rw [← filled.buffer] at written
    exact written

theorem putU16_filled {b : ByteBuffer} {front : List UInt8} {left : Nat}
    (filled : Filled b front left) (data : UInt16) (fits : 2 ≤ left) :
    ∃ b', putU16 data b = some (true, b') ∧
      Filled b' (front ++ BigEndian.bytes 2 data.toNat) (left - 2) := by
  have put := putU8Array_filled filled (BigEndian.bytes 2 data.toNat) (by simpa using fits)
  rw [BigEndian.length_bytes] at put
  rw [putU16, filled.bigEndian]
  exact put

-- A written buffer is sent behind its channel.
theorem withId_full (id : UInt8) (body : List UInt8) :
    withId id ⟨0, body.length⟩ body = some (id :: body) := by
  have grown : resize body (body.length + 1) = body ++ [0] := by
    simp [resize, List.take_of_length_le]
  have range : (0 ≤ body.length ∧ body.length ≤ (body ++ [(0 : UInt8)]).length ∧
      0 + 1 + (body.length - 0) ≤ (body ++ [(0 : UInt8)]).length) := by
    rw [List.length_append, List.length_singleton]
    omega
  have copied : copyWithin (body ++ [0]) ⟨0, body.length⟩ (0 + 1) =
      some ((body ++ [0]).take 1 ++ body) := by
    have same : slice (body ++ [0]) 0 (body.length - 0) = body := by
      simp [slice]
    have gone : (body ++ [(0 : UInt8)]).drop (0 + 1 + body.length) = [] :=
      List.drop_of_length_le (by rw [List.length_append, List.length_singleton]; omega)
    rw [copyWithin, if_pos range, same, overwrite, gone, List.append_nil]
  have first : ∃ b, (body ++ [(0 : UInt8)]).take 1 = [b] := by
    cases body with
    | nil => exact ⟨0, rfl⟩
    | cons b rest => exact ⟨b, rfl⟩
  obtain ⟨b, first⟩ := first
  simp [withId, grown, copied, first]

theorem sendPacket_of_fill {json : MessageWriter Message Stats}
    {packet : OutboundPacket Message Stats} {id : UInt8} {body : List UInt8}
    (serialized : packet.serialize json [] = some (some (id, ⟨0, body.length⟩), body)) :
    packet.sendPacket json = some (some (id :: body)) := by
  simp [sendPacket, serialized, withId_full]

theorem serializeText_eq (channel : UInt8) (json : JsonText) :
    serializeText channel (some json) [] =
      some (some (channel, ⟨0, (Utf8.encode json.text).length + 2⟩),
        BigEndian.bytes 2 ((Utf8.encode json.text).length % 65536) ++ Utf8.encode json.text) := by
  simp only [serializeText]
  generalize same : (Utf8.encode json.text).length = length
  obtain ⟨counted, putCount, filledCount⟩ :=
    putU16_filled (filled_new (length + 2)) (UInt16.ofNat length) (Nat.le_add_left 2 length)
  obtain ⟨full, putText, filledText⟩ :=
    putU8Array_filled filledCount (Utf8.encode json.text) (Nat.le_of_eq same)
  have count : (UInt16.ofNat length).toNat = length % 65536 := UInt16.toNat_ofNat' ..
  have limit : full.position = length + 2 := by
    rw [filledText.position, List.nil_append, List.length_append, BigEndian.length_bytes, same]
    exact Nat.add_comm 2 length
  have bytes : full.buffer = BigEndian.bytes 2 (length % 65536) ++ Utf8.encode json.text := by
    have left : length + 2 - 2 - (Utf8.encode json.text).length = 0 := by omega
    rw [filledText.buffer, count, List.nil_append, left, List.replicate_zero, List.append_nil]
  simp only [fill, bind, StateT.bind, Option.bind_some, putUtf8Raw, ByteBuffer.flip, putCount,
    putText, Option.map_some, limit, bytes]

theorem serializeMotors_eq (number : UInt8) (first second : UInt16) :
    serializeMotors number first second [] =
      some (some (TransportChannelId.controller0 + number, ⟨0, 6⟩),
        [0, number] ++ BigEndian.bytes 2 first.toNat ++ BigEndian.bytes 2 second.toNat) := by
  obtain ⟨kind, putKind, filledKind⟩ := putU8Array_filled (filled_new 6) [0] (by decide)
  obtain ⟨slot, putSlot, filledSlot⟩ := putU8Array_filled filledKind [number] (by simp)
  obtain ⟨one, putFirst, filledFirst⟩ := putU16_filled filledSlot first (by simp)
  obtain ⟨full, putSecond, filledSecond⟩ := putU16_filled filledFirst second (by simp)
  have limit : full.position = 6 := by
    rw [filledSecond.position]
    simp
  have bytes : full.buffer =
      [0, number] ++ BigEndian.bytes 2 first.toNat ++ BigEndian.bytes 2 second.toNat := by
    rw [filledSecond.buffer]
    simp
  simp only [serializeMotors, fill, bind, StateT.bind, Option.bind_some, putU8, ByteBuffer.flip,
    putKind, putSlot, putFirst, putSecond, Option.map_some, limit, bytes]

end Writing

/-- A text is framed by its channel and the low sixteen bits of its length. -/
theorem sendPacket_text {json : MessageWriter Message Stats}
    {packet : OutboundPacket Message Stats} (channel : UInt8) (text : JsonText)
    (serialized : packet.serialize json [] = serializeText channel (some text) []) :
    packet.sendPacket json = some (some (channel ::
      (BigEndian.bytes 2 ((Utf8.encode text.text).length % 65536) ++ Utf8.encode text.text))) := by
  apply sendPacket_of_fill
  rw [serialized, serializeText_eq, List.length_append, BigEndian.length_bytes, Nat.add_comm 2]

/-- Both kinds of rumble are framed alike, on the channel of their controller. -/
theorem sendPacket_motors {json : MessageWriter Message Stats}
    {packet : OutboundPacket Message Stats} (number : UInt8) (first second : UInt16)
    (serialized : packet.serialize json [] = serializeMotors number first second []) :
    packet.sendPacket json = some (some ((TransportChannelId.controller0 + number) ::
      ([0, number] ++ BigEndian.bytes 2 first.toNat ++ BigEndian.bytes 2 second.toNat))) := by
  apply sendPacket_of_fill
  rw [serialized, serializeMotors_eq]
  simp

theorem sendPacket_rtt (json : MessageWriter Message Stats) (sequenceNumber : UInt16) :
    (rtt sequenceNumber : OutboundPacket Message Stats).sendPacket json =
      some (some (TransportChannelId.rtt :: ([0] ++ BigEndian.bytes 2 sequenceNumber.toNat))) := by
  obtain ⟨kind, putKind, filledKind⟩ := putU8Array_filled (filled_new 3) [0] (by decide)
  obtain ⟨full, putNumber, filledNumber⟩ := putU16_filled filledKind sequenceNumber (by simp)
  have limit : full.limit = 3 := by
    rw [filledNumber.limit]
    simp
  have bytes : full.buffer = [0] ++ BigEndian.bytes 2 sequenceNumber.toNat := by
    rw [filledNumber.buffer]
    simp
  apply sendPacket_of_fill
  simp only [serialize, fill, bind, StateT.bind, pure, StateT.pure, Option.bind_some,
    ByteBuffer.putU8, putKind, putNumber, Option.map_some, limit, bytes]
  simp

end OutboundPacket

end BetterParsec
