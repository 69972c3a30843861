import BetterParsec.Browser.Controllers
import BetterParsec.Browser.DesktopControl
import BetterParsec.Input.BrowserText
import BetterParsec.Library.LossyUtf8

set_option autoImplicit false
set_option linter.all false

/-!
# Channels of the browser

`WebSocketDataTransportChannel` of `web/stream/transport/web_socket.ts` over the
reading side of `web/stream/buffer.ts`, and what the listeners of the stream,
its statistics and its input read in a message.
-/

namespace BetterParsec

open LittleEndian (overwrite slice take_overwrite length_overwrite)

namespace TransportChannelId

-- The values of `TransportChannelId`, each with a channel of its own.
def all : List UInt8 := (List.range 29).map UInt8.ofNat

end TransportChannelId

namespace BrowserInput

-- `new TextDecoder().decode`.
def textDecode (bytes : List UInt8) : List Char :=
  Web.DesktopControl.withoutMark (Utf8.lossy bytes)

-- An error is what the code throws.
abbrev Reader := StateT WriteBuffer (Except String)

namespace WriteBuffer

def putU8Array (b : WriteBuffer) (data : List UInt8) : Except String WriteBuffer :=
  let maxPosition := b.position + data.length
  if maxPosition > b.buffer.length then .error "failed to write over the capacity"
  else .ok
    { position := maxPosition
      limit := if maxPosition > b.limit then maxPosition else b.limit
      buffer := overwrite b.buffer b.position data }

def bytesUsed (amount : Nat) : Reader Unit := fun b =>
  if b.position + amount > b.limit then .error "failed to read over the limit"
  else .ok ((), { b with position := b.position + amount })

-- The `DataView` reads big-endian, and throws behind the end of the buffer.
def getUint (width : Nat) : Reader Nat := fun b =>
  if b.position + width ≤ b.buffer.length then
    (do bytesUsed width
        pure (BigEndian.value (slice b.buffer b.position width)) : Reader Nat) b
  else .error "RangeError"

def getU8 : Reader UInt8 := do
  pure (UInt8.ofNat (← getUint 1))

def getU16 : Reader UInt16 := do
  pure (UInt16.ofNat (← getUint 2))

def getBool : Reader Bool := do
  pure ((← getU8) != 0)

-- A new array of zeros takes what the buffer has.
def getUtf8Raw (length : Nat) : Reader (List Char) := fun b =>
  (do bytesUsed length
      pure (textDecode
        (overwrite (List.replicate length 0) 0 (slice b.buffer b.position length))) :
    Reader (List Char)) b

-- The three calls every handler begins with.
def load (b : WriteBuffer) (data : List UInt8) : Except String WriteBuffer := do
  let b ← b.reset.putU8Array data
  pure b.flip

def reading {α : Type} (b : WriteBuffer) (data : List UInt8) (reader : Reader α) :
    Except String α := do
  let (value, _) ← reader (← b.load data)
  pure value

end WriteBuffer

end BrowserInput

namespace Web

open BrowserInput BrowserInput.WriteBuffer

-- What a message was understood as.  A text is what `JSON.parse` is given.
inductive Received (State : Type) where
  | general (text : List Char)
  | stats (text : List Char)
  | touchSupported (supported : Bool)
  | controller (input : ControllerInput State)
  -- Sent back as it came.
  | echo (data : List UInt8)
  deriving DecidableEq

inductive Listener where
  | generalChannelMessage
  | rawData
  | touchData
  | controllerData
  | rtt
  deriving DecidableEq

-- `BIG_BUFFER`, which the channels and the statistics share, and the buffer of the input.
structure Page where
  big : WriteBuffer
  input : WriteBuffer
  bigCapacity : big.buffer.length = 1000000
  inputCapacity : input.buffer.length = 1024

namespace Page

variable {State : Type}

def onGeneralChannelMessage (data : List UInt8) : Option (Received State) :=
  match data with
  | high :: low :: rest =>
    let textLength := BigEndian.value [high, low]
    if rest.length < textLength then none
    else some (.general (textDecode (rest.take textLength)))
  | _ => none

def onRawData (page : Page) (data : List UInt8) : Except String (Option (Received State)) :=
  page.big.reading data do
    let textLength ← getU16
    let text ← getUtf8Raw textLength.toNat
    pure (some (.stats text))

def onTouchData (data : List UInt8) : Except String (Option (Received State)) := do
  let (supported, _) ← getBool ⟨0, data.length, data⟩
  pure (some (.touchSupported supported))

-- The motor values are their numerators over 0xFFFF.
def onControllerData (page : Page) (data : List UInt8) :
    Except String (Option (Received State)) :=
  page.input.reading data do
    let ty ← getU8
    if ty = 0 then
      let id ← getU8
      let lowFrequencyMotor ← getU16
      let highFrequencyMotor ← getU16
      pure (some (.controller (.rumble id lowFrequencyMotor highFrequencyMotor)))
    else if ty = 1 then
      let id ← getU8
      let leftTrigger ← getU16
      let rightTrigger ← getU16
      pure (some (.controller (.triggerRumble id leftTrigger rightTrigger)))
    else pure none

def onRtt (data : List UInt8) : Except String (Option (Received State)) :=
  (newBuffer data.length).reading data do
    let ty ← getU8
    pure (if ty = 0 then some (.echo data) else none)

def listen (page : Page) (data : List UInt8) : Listener → Except String (Option (Received State))
  | .generalChannelMessage => pure (onGeneralChannelMessage data)
  | .rawData => page.onRawData data
  | .touchData => onTouchData data
  | .controllerData => page.onControllerData data
  | .rtt => onRtt data

-- The loop over the listeners ends at one that throws.
def deliver (page : Page) (data : List UInt8) : List Listener → List (Received State)
  | [] => []
  | listener :: rest =>
    match page.listen data listener with
    | .error _ => []
    | .ok received => received.toList ++ page.deliver data rest

abbrev Channels := UInt8 → List Listener

def addReceiveListener (channels : Channels) (id : UInt8) (listener : Listener) : Channels :=
  Function.update channels id (channels id ++ [listener])

-- The sixteen channels of the controllers are kept for sending; no listener is added to them.
def inputSetTransport (channels : Channels) : Channels :=
  addReceiveListener (addReceiveListener channels TransportChannelId.touch .touchData)
    TransportChannelId.controllers .controllerData

def statsSetTransport (enabled : Bool) (channels : Channels) : Channels :=
  if enabled then addReceiveListener channels TransportChannelId.stats .rawData else channels

-- The channels of a new transport have no listeners.
def setTransport (statsEnabled : Bool) : Channels :=
  let channels := statsSetTransport statsEnabled (inputSetTransport (fun _ => []))
  let channels := addReceiveListener channels TransportChannelId.rtt .rtt
  addReceiveListener channels TransportChannelId.general .generalChannelMessage

def onMessage (page : Page) (channels : Channels) (channel : UInt8) (frame : List UInt8) :
    Except String (List (Received State)) := do
  let (id, b) ← getU8 (← page.big.load frame)
  if id ≠ channel then pure []
  else pure (page.deliver b.getRemainingBuffer (channels channel))

/-- Every channel hears every frame; one that throws leaves it to the others. -/
def receive (page : Page) (channels : Channels) (frame : List UInt8) : List (Received State) :=
  TransportChannelId.all.flatMap fun channel =>
    (page.onMessage channels channel frame).toOption.getD []

end Page

section Reading

-- The bytes still to be read.
structure Loaded (b : WriteBuffer) (data : List UInt8) : Prop where
  limit : b.limit = b.position + data.length
  inside : b.limit ≤ b.buffer.length
  data : b.getRemainingBuffer = data

theorem load_loaded (b : WriteBuffer) (data : List UInt8) (fits : data.length ≤ b.buffer.length) :
    ∃ b', b.load data = .ok b' ∧ Loaded b' data := by
  have room : ¬ 0 + data.length > b.buffer.length := by omega
  have put : b.reset.putU8Array data = .ok
      ⟨0 + data.length, if 0 + data.length > 0 then 0 + data.length else 0,
        overwrite b.buffer 0 data⟩ := if_neg room
  refine ⟨⟨0, 0 + data.length, overwrite b.buffer 0 data⟩, ?_, rfl, ?_, ?_⟩
  · rw [load, put]
    rfl
  · rw [length_overwrite b.buffer data 0 (by omega)]
    exact Nat.not_lt.mp room
  · have front := take_overwrite b.buffer data 0 (Nat.zero_le _)
    simpa [getRemainingBuffer] using front

theorem load_refused (b : WriteBuffer) (data : List UInt8) (long : b.buffer.length < data.length) :
    b.load data = .error "failed to write over the capacity" := by
  have refused : b.reset.putU8Array data = .error "failed to write over the capacity" :=
    if_pos (show 0 + data.length > b.buffer.length by omega)
  rw [load, refused]
  rfl

variable {b : WriteBuffer} {field data : List UInt8}

theorem Loaded.slice (loaded : Loaded b (field ++ data)) :
    slice b.buffer b.position field.length = field := by
  have bytes := congrArg (List.take field.length) loaded.data
  have limit := loaded.limit
  rw [List.length_append] at limit
  rw [getRemainingBuffer, List.take_take, List.take_left, Nat.min_eq_left (by omega)] at bytes
  exact bytes

theorem Loaded.skip (loaded : Loaded b (field ++ data)) :
    Loaded { b with position := b.position + field.length } data := by
  have limit := loaded.limit
  rw [List.length_append] at limit
  refine ⟨limit.trans (Nat.add_assoc _ _ _).symm, loaded.inside, ?_⟩
  have bytes := congrArg (List.drop field.length) loaded.data
  rw [getRemainingBuffer, List.drop_take, List.drop_drop, List.drop_left] at bytes
  rw [getRemainingBuffer]
  rw [← bytes, Nat.sub_sub]

theorem bytesUsed_loaded (loaded : Loaded b (field ++ data)) :
    bytesUsed field.length b = .ok ((), { b with position := b.position + field.length }) := by
  have limit := loaded.limit
  rw [List.length_append] at limit
  rw [bytesUsed, if_neg (by omega)]

theorem getUint_loaded (loaded : Loaded b (field ++ data)) :
    ∃ b', getUint field.length b = .ok (BigEndian.value field, b') ∧ Loaded b' data := by
  have limit := loaded.limit
  have inside := loaded.inside
  rw [List.length_append] at limit
  refine ⟨_, ?_, loaded.skip⟩
  rw [getUint, if_pos (by omega), loaded.slice]
  simp only [bind, StateT.bind, Except.bind, bytesUsed_loaded loaded]
  rfl

theorem getU8_loaded {first : UInt8} (loaded : Loaded b (first :: data)) :
    ∃ b', getU8 b = .ok (first, b') ∧ Loaded b' data := by
  have front : Loaded b ([first] ++ data) := loaded
  obtain ⟨b', got, rest⟩ := getUint_loaded front
  refine ⟨b', ?_, rest⟩
  have value : BigEndian.value [first] = first.toNat := by simp [BigEndian.value, LittleEndian.value]
  have read : getUint 1 b = .ok (first.toNat, b') := by rw [← value]; exact got
  simp only [getU8, bind, StateT.bind, Except.bind, read]
  simp [pure, StateT.pure, Except.pure]

theorem getU16_loaded (n : Nat) (loaded : Loaded b (BigEndian.bytes 2 n ++ data)) :
    ∃ b', getU16 b = .ok (UInt16.ofNat n, b') ∧ Loaded b' data := by
  obtain ⟨b', got, rest⟩ := getUint_loaded loaded
  refine ⟨b', ?_, rest⟩
  rw [BigEndian.length_bytes, BigEndian.value_bytes] at got
  have same : UInt16.ofNat (n % 256 ^ 2) = UInt16.ofNat n := by
    apply UInt16.toNat_inj.mp
    simp
  simp only [getU16, bind, StateT.bind, Except.bind, got, pure, StateT.pure, Except.pure, same]

theorem getUtf8Raw_loaded (loaded : Loaded b (field ++ data)) :
    ∃ b', getUtf8Raw field.length b = .ok (textDecode field, b') := by
  refine ⟨{ b with position := b.position + field.length }, ?_⟩
  have whole : overwrite (List.replicate field.length 0) 0 field = field := by
    simp [overwrite]
  simp only [getUtf8Raw, bind, StateT.bind, Except.bind, bytesUsed_loaded loaded, loaded.slice,
    whole]
  rfl

end Reading

end Web

end BetterParsec
