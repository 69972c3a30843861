import BetterParsec.Input.Decoding

set_option autoImplicit false
set_option linter.all false

/-!
# Text from the browser

`StreamInput.sendText` of `web/stream/input.ts` over the `ByteBuffer` of
`web/stream/buffer.ts`, against the decoder of the streamer.  The browser
counts UTF-16 code units, the streamer counts characters.
-/

namespace BetterParsec

open LittleEndian (overwrite take_overwrite length_overwrite)

namespace BrowserInput

-- The `ByteBuffer` of the browser: writing moves the position, `flip` sets the limit.
structure WriteBuffer where
  position : Nat
  limit : Nat
  buffer : List UInt8
  deriving DecidableEq

def newBuffer (length : Nat) : WriteBuffer := ⟨0, length, List.replicate length 0⟩

def utf16Size (c : Char) : Nat := if c.toNat ≤ 0xFFFF then 1 else 2

-- `text.length`: code units.
def utf16Length (text : List Char) : Nat := (text.map utf16Size).sum

-- `TextEncoder.encodeInto`: whole characters as long as there is room, with the
-- number of code units read.
def encodeInto : List Char → Nat → Nat × List UInt8
  | [], _ => (0, [])
  | c :: text, room =>
    if c.utf8Size ≤ room then
      let rest := encodeInto text (room - c.utf8Size)
      (utf16Size c + rest.1, String.utf8EncodeChar c ++ rest.2)
    else (0, [])

namespace WriteBuffer

def reset (b : WriteBuffer) : WriteBuffer := { b with position := 0, limit := 0 }

def flip (b : WriteBuffer) : WriteBuffer := { b with limit := b.position, position := 0 }

-- `setUint8` keeps the low eight bits of the number.
def putU8 (b : WriteBuffer) (data : Nat) : Except String WriteBuffer :=
  let maxPosition := b.position + 1
  if maxPosition > b.buffer.length then .error "failed to write over the capacity"
  else .ok
    { position := maxPosition
      limit := if maxPosition > b.limit then maxPosition else b.limit
      buffer := overwrite b.buffer b.position [UInt8.ofNat data] }

def putUtf8Raw (b : WriteBuffer) (text : List Char) : Except String WriteBuffer :=
  let result := encodeInto text (b.buffer.length - b.position)
  if result.1 ≠ utf16Length text then .error "failed to put utf8 text"
  else .ok
    { b with
      position := b.position + result.2.length
      buffer := overwrite b.buffer b.position result.2 }

def getRemainingBuffer (b : WriteBuffer) : List UInt8 :=
  (b.buffer.drop b.position).take (b.limit - b.position)

end WriteBuffer

-- The payload handed to the channel, or none when there is no channel.
def trySendChannel (channel : Bool) (b : WriteBuffer) : Except String (Option (List UInt8)) :=
  if !channel then .ok none
  else
    let readBuffer := b.flip.getRemainingBuffer
    if readBuffer.length = 0 then .error "illegal buffer size" else .ok (some readBuffer)

def sendText (keyboard : Bool) (b : WriteBuffer) (text : String) :
    Except String (Option (List UInt8)) := do
  let b := b.reset
  let b ← b.putU8 1
  let b ← b.putU8 (utf16Length text.toList)
  let b ← b.putUtf8Raw text.toList
  trySendChannel keyboard b

section Counts

theorem encodeInto_fits (text : List Char) (room : Nat)
    (fits : (Utf8.encode text).length ≤ room) :
    encodeInto text room = (utf16Length text, Utf8.encode text) := by
  induction text generalizing room with
  | nil => rfl
  | cons c text ih =>
    rw [Utf8.length_encode_cons] at fits
    rw [encodeInto, if_pos (by omega), ih _ (by omega)]
    simp [utf16Length, Utf8.encode_cons]

-- The characters outside the basic plane, which take two code units.
def astral (text : List Char) : Nat := text.countP (fun c => 0xFFFF < c.toNat)

theorem utf16Length_eq (text : List Char) : utf16Length text = text.length + astral text := by
  induction text with
  | nil => rfl
  | cons c text ih =>
    rw [utf16Length] at ih
    rw [utf16Length, astral, List.map_cons, List.sum_cons, ih, astral, List.countP_cons,
      List.length_cons, utf16Size]
    by_cases basic : c.toNat ≤ 0xFFFF
    · simp [basic, Nat.not_lt.mpr basic]
      omega
    · simp [basic, Nat.not_le.mp basic]
      omega

theorem utf8Size_of_astral (c : Char) (h : 0xFFFF < c.toNat) : c.utf8Size = 4 := by
  rw [Char.utf8Size, if_neg, if_neg, if_neg]
  all_goals
    rw [UInt32.le_iff_toNat_le]
    change ¬c.toNat ≤ _
    simp
    omega

theorem four_mul_astral_le (text : List Char) : 4 * astral text ≤ (Utf8.encode text).length := by
  induction text with
  | nil => exact Nat.zero_le _
  | cons c text ih =>
    rw [astral] at ih
    rw [Utf8.length_encode_cons, astral, List.countP_cons]
    by_cases far : 0xFFFF < c.toNat
    · have width := utf8Size_of_astral c far
      simp only [far, decide_true, if_true]
      omega
    · simp only [far, decide_false, Bool.false_eq_true, if_false]
      omega

theorem astral_eq_zero_iff (text : List Char) :
    astral text = 0 ↔ ∀ c ∈ text, c.toNat ≤ 0xFFFF := by
  simp [astral, List.countP_eq_zero]

end Counts

section Payload

variable {types : WireTypes}

-- The bytes a buffer has been given since its reset.
def written (b : WriteBuffer) : List UInt8 := b.buffer.take b.position

theorem putU8_written (b : WriteBuffer) (data : Nat) (fits : b.position < b.buffer.length) :
    ∃ b', b.putU8 data = .ok b' ∧ written b' = written b ++ [UInt8.ofNat data] ∧
      b'.position = b.position + 1 ∧ b'.buffer.length = b.buffer.length := by
  refine ⟨_, if_neg (by omega), ?_, rfl, ?_⟩
  · exact take_overwrite b.buffer [UInt8.ofNat data] b.position (by omega)
  · exact length_overwrite b.buffer [UInt8.ofNat data] b.position fits

theorem putUtf8Raw_written (b : WriteBuffer) (text : List Char)
    (fits : b.position + (Utf8.encode text).length ≤ b.buffer.length) :
    ∃ b', b.putUtf8Raw text = .ok b' ∧ written b' = written b ++ Utf8.encode text ∧
      b'.position = b.position + (Utf8.encode text).length := by
  have all := encodeInto_fits text (b.buffer.length - b.position) (by omega)
  have stored : b.putUtf8Raw text = .ok
      { b with
        position := b.position + (Utf8.encode text).length
        buffer := overwrite b.buffer b.position (Utf8.encode text) } := by
    simp only [WriteBuffer.putUtf8Raw, all, ne_eq, not_true_eq_false, if_false]
  refine ⟨_, stored, ?_, rfl⟩
  exact take_overwrite b.buffer (Utf8.encode text) b.position (by omega)

/-- A text that fits is sent as its kind, its code units modulo 256, and its bytes. -/
theorem sendText_payload (b : WriteBuffer) (text : String)
    (fits : 2 + (Utf8.encode text.toList).length ≤ b.buffer.length) :
    sendText true b text = .ok (some
      ([1] ++ [UInt8.ofNat (utf16Length text.toList)] ++ Utf8.encode text.toList)) := by
  have empty : written b.reset = [] := List.take_zero
  obtain ⟨kind, putKind, bytesKind, atKind, lengthKind⟩ :=
    putU8_written b.reset 1 (show 0 < b.buffer.length by omega)
  have start : kind.position = 1 := atKind
  have room : kind.buffer.length = b.buffer.length := lengthKind
  obtain ⟨count, putCount, bytesCount, atCount, lengthCount⟩ :=
    putU8_written kind (utf16Length text.toList) (by omega)
  obtain ⟨full, putText, bytesText, atText⟩ :=
    putUtf8Raw_written count text.toList (by omega)
  have payload : full.flip.getRemainingBuffer = written full := by
    simp [WriteBuffer.flip, WriteBuffer.getRemainingBuffer, written]
  have bytes : written full =
      [1] ++ [UInt8.ofNat (utf16Length text.toList)] ++ Utf8.encode text.toList := by
    rw [bytesText, bytesCount, bytesKind, empty]
    rfl
  have sent : trySendChannel true full = .ok (some (written full)) := by
    simp [trySendChannel, payload, bytes]
  simp only [sendText, putKind, putCount, putText, bind, Except.bind, sent, bytes]

-- Whatever is sent is decoded as the one packet with this text.
def DecodedAsTyped (types : WireTypes) (b : WriteBuffer) (text : String) : Prop :=
  ∀ payload, sendText true b text = .ok (some payload) →
    InboundPacket.deserialize TransportChannelId.keyboard payload =
      some (some (.text text : InboundPacket types))

theorem decodedAsTyped_iff_count (b : WriteBuffer) (text : String)
    (fits : 2 + (Utf8.encode text.toList).length ≤ b.buffer.length) :
    DecodedAsTyped types b text ↔ utf16Length text.toList % 256 = text.toList.length := by
  have count := @InboundPacket.deserialize_text_iff types text
    (UInt8.ofNat (utf16Length text.toList))
  rw [UInt8.toNat_ofNat'] at count
  rw [← count, DecodedAsTyped, sendText_payload b text fits]
  constructor
  · intro decoded
    exact decoded _ rfl
  · rintro decoded payload ⟨rfl⟩
    exact decoded

/-- A typed text arrives as typed exactly when it has at most 255 characters and none of them
takes two code units. -/
theorem sendText_decoded_iff (types : WireTypes) (b : WriteBuffer)
    (capacity : b.buffer.length = 1024) (text : String)
    (short : (Utf8.encode text.toList).length ≤ 1000) :
    DecodedAsTyped types b text ↔
      (∀ c ∈ text.toList, c.toNat ≤ 0xFFFF) ∧ text.toList.length ≤ 255 := by
  rw [decodedAsTyped_iff_count b text (by omega), ← astral_eq_zero_iff, utf16Length_eq]
  have bytes := four_mul_astral_le text.toList
  omega

theorem sendText_decoded_iff_hangul :
    DecodedAsTyped sampleTypes (newBuffer 1024) "한글ab" ↔
      (∀ c ∈ "한글ab".toList, c.toNat ≤ 0xFFFF) ∧ "한글ab".toList.length ≤ 255 :=
  sendText_decoded_iff sampleTypes (newBuffer 1024) List.length_replicate "한글ab" (by decide)

-- One character of two code units: the streamer looks for a second character.
theorem sendText_astral_refused :
    ¬ ∀ (types : WireTypes) (b : WriteBuffer), b.buffer.length = 1024 → ∀ text : String,
      (Utf8.encode text.toList).length ≤ 1000 → DecodedAsTyped types b text := by
  intro typed
  have capacity : (newBuffer 1024).buffer.length = 1024 := List.length_replicate
  have bytes : (Utf8.encode "😀".toList).length = 4 := by decide
  have decoded := typed sampleTypes (newBuffer 1024) capacity "😀" (by omega)
  rw [decodedAsTyped_iff_count _ _ (by omega)] at decoded
  exact absurd decoded (by decide)

end Payload

end BrowserInput

end BetterParsec
