import BetterParsec.Input.ByteBuffer

set_option autoImplicit false
set_option linter.all false

/-!
# The input wire

`input_wire.rs`: the packets a client sends on the input channels, their
encoder, and the decoder of the streamer.
-/

namespace BetterParsec

namespace TransportChannelId

def general : UInt8 := 0

def stats : UInt8 := 1

def hostVideo : UInt8 := 2

def hostAudio : UInt8 := 3

def mouseReliable : UInt8 := 4

def mouseAbsolute : UInt8 := 5

def mouseRelative : UInt8 := 6

def keyboard : UInt8 := 7

def touch : UInt8 := 8

def controllers : UInt8 := 9

def rtt : UInt8 := 26

end TransportChannelId

inductive GeneralClientMessage where
  | stop
  deriving DecidableEq

inductive MouseButtonAction where
  | press
  | release
  deriving DecidableEq

inductive KeyAction where
  | down
  | up
  deriving DecidableEq

-- The wire has codes for the first three; the host side knows others.
inductive TouchEventType where
  | down
  | move
  | cancel
  | other (code : UInt8)
  deriving DecidableEq

-- The types of `moonlight_common` and of `serde_json` that the wire goes through.
structure WireTypes where
  MouseButton : Type
  KeyModifiers : Type
  KeyFlags : Type
  ControllerType : Type
  ControllerButtons : Type
  ControllerCapabilities : Type
  buttonAsU8 : MouseButton → UInt8
  buttonFromU8 : UInt8 → Option MouseButton
  modifiersBits : KeyModifiers → Int8
  modifiersFromBits : Int8 → Option KeyModifiers
  modifiersEmpty : KeyModifiers
  flagsEmpty : KeyFlags
  controllerUnknown : ControllerType
  buttonsBits : ControllerButtons → UInt32
  buttonsFromBits : UInt32 → Option ControllerButtons
  buttonsAll : ControllerButtons
  capabilitiesBits : ControllerCapabilities → UInt16
  capabilitiesFromBits : UInt16 → Option ControllerCapabilities
  capabilitiesEmpty : ControllerCapabilities
  messageFromStr : String → Option GeneralClientMessage

-- The derived serialisation of an enumeration writes the name of the variant.
def GeneralClientMessage.toJson : GeneralClientMessage → String
  | .stop => "\"Stop\""

inductive InboundPacket (types : WireTypes) where
  | general (message : GeneralClientMessage)
  | mouseMove (deltaX deltaY : Int16)
  | mousePosition (x y referenceWidth referenceHeight : Int16)
  | mouseButton (action : MouseButtonAction) (button : types.MouseButton)
  | highResScroll (deltaX deltaY : Int16)
  | scroll (deltaX deltaY : Int8)
  | key (action : KeyAction) (modifiers : types.KeyModifiers) (key : UInt16)
      (flags : types.KeyFlags)
  | text (text : String)
  | controllerConnected (id : UInt8) (ty : types.ControllerType)
      (supportedButtons : types.ControllerButtons) (capabilities : types.ControllerCapabilities)
  | controllerDisconnected (id : UInt8)
  | controllerState (id : UInt8) (buttons : types.ControllerButtons)
      (leftTrigger rightTrigger : UInt8) (leftStickX leftStickY rightStickX rightStickY : Int16)
  | touch (pointerId : UInt32) (x y pressureOrDistance contactAreaMajor contactAreaMinor : F32)
      (rotation : Option UInt16) (eventType : TouchEventType)
  | rtt (sequenceNumber : UInt16)
  | requestVideoIdr

def controllerChannels : List UInt8 :=
  [10, 11, 12, 13, 14, 15, 16, 17, 18, 19, 20, 21, 22, 23, 24, 25]

def beU16 (value : UInt16) : List UInt8 := BigEndian.bytes 2 value.toNat

def beI16 (value : Int16) : List UInt8 := beU16 value.toUInt16

def beU32 (value : UInt32) : List UInt8 := BigEndian.bytes 4 value.toNat

def boolByte (value : Bool) : UInt8 := if value then 1 else 0

namespace InboundPacket

variable {types : WireTypes}

def encode : InboundPacket types → Option (UInt8 × List UInt8)
  | .general message =>
    let bytes := Utf8.encode message.toJson.toList
    if bytes.length < 2 ^ 16 then
      some (TransportChannelId.general, beU16 (UInt16.ofNat bytes.length) ++ bytes)
    else none
  | .mouseMove deltaX deltaY =>
    some (TransportChannelId.mouseRelative, [0] ++ beI16 deltaX ++ beI16 deltaY)
  | .mousePosition x y referenceWidth referenceHeight =>
    some (TransportChannelId.mouseAbsolute,
      [1] ++ beI16 x ++ beI16 y ++ beI16 referenceWidth ++ beI16 referenceHeight)
  | .mouseButton action button =>
    some (TransportChannelId.mouseReliable,
      [2] ++ [boolByte (action = .press)] ++ [types.buttonAsU8 button])
  | .highResScroll deltaX deltaY =>
    some (TransportChannelId.mouseReliable, [3] ++ beI16 deltaX ++ beI16 deltaY)
  | .scroll deltaX deltaY =>
    some (TransportChannelId.mouseReliable, [4] ++ [deltaX.toUInt8] ++ [deltaY.toUInt8])
  | .key action modifiers keyCode _ =>
    some (TransportChannelId.keyboard,
      [0] ++ [boolByte (action = .down)] ++ [(types.modifiersBits modifiers).toUInt8] ++
        beU16 keyCode)
  | .text typed =>
    -- The count is of characters, not of bytes.
    let chars := typed.toList.length
    if chars < 2 ^ 8 then
      some (TransportChannelId.keyboard, [1] ++ [UInt8.ofNat chars] ++ Utf8.encode typed.toList)
    else none
  | .controllerConnected id _ supportedButtons capabilities =>
    some (TransportChannelId.controllers,
      [0] ++ [id] ++ beU32 (types.buttonsBits supportedButtons) ++
        beU16 (types.capabilitiesBits capabilities))
  | .controllerDisconnected id => some (TransportChannelId.controllers, [1] ++ [id])
  | .controllerState id buttons leftTrigger rightTrigger leftStickX leftStickY rightStickX
      rightStickY =>
    match controllerChannels[id.toNat]? with
    | none => none
    | some channel =>
      some (channel,
        [0] ++ beU32 (types.buttonsBits buttons) ++ [leftTrigger] ++ [rightTrigger] ++
          beI16 leftStickX ++ beI16 leftStickY ++ beI16 rightStickX ++ beI16 rightStickY)
  | .touch pointerId x y pressureOrDistance contactAreaMajor contactAreaMinor rotation
      eventType =>
    let message (code : UInt8) := some (TransportChannelId.touch,
      [code] ++ beU32 pointerId ++ beU32 x.bits ++ beU32 y.bits ++
        beU32 pressureOrDistance.bits ++ beU32 contactAreaMajor.bits ++
        beU32 contactAreaMinor.bits ++ beU16 (rotation.getD 0))
    match eventType with
    | .down => message 0
    | .move => message 1
    | .cancel => message 2
    | .other _ => none
  | .rtt sequenceNumber => some (TransportChannelId.rtt, [0] ++ beU16 sequenceNumber)
  | .requestVideoIdr => some (TransportChannelId.hostVideo, [0])

open ByteBuffer

def readGeneral : Read (Option (InboundPacket types)) := do
  if (← remaining) < 2 then
    pure none
  else
    let len ← getU16
    match ← getUtf8Raw len.toNat with
    | .error _ => pure none
    | .ok json =>
      match types.messageFromStr json with
      | none => pure none
      | some message => pure (some (.general message))

def readHostVideo : Read (Option (InboundPacket types)) := do
  if (← remaining) < 1 then
    pure none
  else
    let ty ← getU8
    if ty = 0 then pure (some .requestVideoIdr) else pure none

def readMouseMove : Read (Option (InboundPacket types)) := do
  if (← remaining) < 4 then
    pure none
  else
    let deltaX ← getI16
    let deltaY ← getI16
    pure (some (.mouseMove deltaX deltaY))

def readMousePosition : Read (Option (InboundPacket types)) := do
  if (← remaining) < 8 then
    pure none
  else
    let x ← getI16
    let y ← getI16
    let referenceWidth ← getI16
    let referenceHeight ← getI16
    pure (some (.mousePosition x y referenceWidth referenceHeight))

def readMouseButton : Read (Option (InboundPacket types)) := do
  if (← remaining) < 2 then
    pure none
  else
    let pressed ← getBool
    let button ← getU8
    match types.buttonFromU8 button with
    | none => pure none
    | some button => pure (some (.mouseButton (if pressed then .press else .release) button))

def readHighResScroll : Read (Option (InboundPacket types)) := do
  if (← remaining) < 4 then
    pure none
  else
    let deltaX ← getI16
    let deltaY ← getI16
    pure (some (.highResScroll deltaX deltaY))

def readScroll : Read (Option (InboundPacket types)) := do
  if (← remaining) < 2 then
    pure none
  else
    let deltaX ← getI8
    let deltaY ← getI8
    pure (some (.scroll deltaX deltaY))

def readMouse : Read (Option (InboundPacket types)) := do
  if (← remaining) < 1 then
    pure none
  else
    let ty ← getU8
    if ty = 0 then readMouseMove
    else if ty = 1 then readMousePosition
    else if ty = 2 then readMouseButton
    else if ty = 3 then readHighResScroll
    else if ty = 4 then readScroll
    else pure none

def readKey : Read (Option (InboundPacket types)) := do
  if (← remaining) < 4 then
    pure none
  else
    let down ← getBool
    let bits ← getU8
    let keyCode ← getU16
    let modifiers := (types.modifiersFromBits bits.toInt8).getD types.modifiersEmpty
    pure (some (.key (if down then .down else .up) modifiers keyCode types.flagsEmpty))

def readText : Read (Option (InboundPacket types)) := do
  if (← remaining) < 1 then
    pure none
  else
    let len ← getU8
    match ← getUtf8Raw len.toNat with
    | .error _ => pure none
    | .ok typed => pure (some (.text typed))

def readKeyboard : Read (Option (InboundPacket types)) := do
  if (← remaining) < 1 then
    pure none
  else
    let ty ← getU8
    if ty = 0 then readKey
    else if ty = 1 then readText
    else pure none

-- The event type is read and checked before the other fields.
def touchEventType (code : UInt8) : Option TouchEventType :=
  if code = 0 then some .down
  else if code = 1 then some .move
  else if code = 2 then some .cancel
  else none

def readTouch : Read (Option (InboundPacket types)) := do
  if (← remaining) < 27 then
    pure none
  else
    let code ← getU8
    match touchEventType code with
    | none => pure none
    | some eventType =>
      let pointerId ← getU32
      let x ← getF32
      let y ← getF32
      let pressureOrDistance ← getF32
      let contactAreaMajor ← getF32
      let contactAreaMinor ← getF32
      let rotation ← getU16
      pure (some (.touch pointerId x y pressureOrDistance contactAreaMajor contactAreaMinor
        (some rotation) eventType))

def readControllerConnected : Read (Option (InboundPacket types)) := do
  if (← remaining) < 7 then
    pure none
  else
    let id ← getU8
    let buttons ← getU32
    let capabilities ← getU16
    pure (some (.controllerConnected id types.controllerUnknown
      ((types.buttonsFromBits buttons).getD types.buttonsAll)
      ((types.capabilitiesFromBits capabilities).getD types.capabilitiesEmpty)))

def readControllerDisconnected : Read (Option (InboundPacket types)) := do
  if (← remaining) < 1 then
    pure none
  else
    let id ← getU8
    pure (some (.controllerDisconnected id))

def readControllers : Read (Option (InboundPacket types)) := do
  if (← remaining) < 1 then
    pure none
  else
    let ty ← getU8
    if ty = 0 then readControllerConnected
    else if ty = 1 then readControllerDisconnected
    else pure none

def readControllerState (gamepadId : Nat) : Read (Option (InboundPacket types)) := do
  if (← remaining) < 14 then
    pure none
  else
    let bits ← getU32
    match types.buttonsFromBits bits with
    | none => pure none
    | some buttons =>
      let leftTrigger ← getU8
      let rightTrigger ← getU8
      let leftStickX ← getI16
      let leftStickY ← getI16
      let rightStickX ← getI16
      let rightStickY ← getI16
      pure (some (.controllerState (UInt8.ofNat gamepadId) buttons leftTrigger rightTrigger
        leftStickX leftStickY rightStickX rightStickY))

def readController (gamepadId : Nat) : Read (Option (InboundPacket types)) := do
  if (← remaining) < 1 then
    pure none
  else
    let ty ← getU8
    if ty = 0 then readControllerState gamepadId else pure none

-- The type byte is read without a look at what remains.
def readRtt : Read (Option (InboundPacket types)) := do
  let ty ← getU8
  if ty = 0 then
    if (← remaining) < 2 then
      pure none
    else
      let sequenceNumber ← getU16
      pure (some (.rtt sequenceNumber))
  else pure none

def readChannel (channel : UInt8) : Read (Option (InboundPacket types)) :=
  if channel = TransportChannelId.general then readGeneral
  else if channel = TransportChannelId.stats then pure none
  else if channel = TransportChannelId.hostVideo then readHostVideo
  else if channel = TransportChannelId.hostAudio then pure none
  else if channel = TransportChannelId.mouseAbsolute ∨ channel = TransportChannelId.mouseReliable ∨
      channel = TransportChannelId.mouseRelative then readMouse
  else if channel = TransportChannelId.keyboard then readKeyboard
  else if channel = TransportChannelId.touch then readTouch
  else if channel = TransportChannelId.controllers then readControllers
  else if channel ∈ controllerChannels then
    match controllerChannels.findIdx? (· == channel) with
    | none => pure none
    | some gamepadId => readController gamepadId
  else if channel = TransportChannelId.rtt then readRtt
  else pure none

-- No result is a panic; `some none` is a refused packet.
def deserialize (channel : UInt8) (bytes : List UInt8) : Option (Option (InboundPacket types)) :=
  ((readChannel channel).run (ByteBuffer.new bytes)).map Prod.fst

end InboundPacket

end BetterParsec
