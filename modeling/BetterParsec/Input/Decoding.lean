import BetterParsec.Input.InputWire

set_option autoImplicit false
set_option linter.all false

/-!
# Decoding input packets

Every read of the decoder but one is covered by a look at what remains, and
what the encoder writes is read back up to the fields the wire does not carry.
-/

namespace BetterParsec

open ByteBuffer

namespace ByteBuffer

variable {β : Type} {need : Nat} {input : List UInt8} {refused value : β} {q : Read β}

/-- A check of what remains covers the reads behind it. -/
theorem covers_checked (h : Covers need q) :
    Covers 0 (do if (← remaining) < need then pure refused else q) := by
  apply covers_remaining
  intro left _
  split
  · exact covers_pure _
  · exact h.more (by omega)

theorem yields_checked (enough : need ≤ input.length) (h : Yields q input value) :
    Yields (do if (← remaining) < need then pure refused else q) input value := by
  apply yields_remaining
  rw [if_neg (by omega)]
  exact h

end ByteBuffer

-- Bit flags of `width` bits that know the bits of the mask.
def FlagSet {width : Nat} (mask : BitVec width) : Type :=
  { bits : BitVec width // bits &&& mask = bits }

def FlagSet.fromBits {width : Nat} (mask bits : BitVec width) : Option (FlagSet mask) :=
  if known : bits &&& mask = bits then some ⟨bits, known⟩ else none

theorem FlagSet.fromBits_val {width : Nat} {mask : BitVec width} (flags : FlagSet mask) :
    FlagSet.fromBits mask flags.val = some flags :=
  dif_pos flags.property

-- Five mouse buttons, four modifiers, and one family of controllers.
def sampleTypes : WireTypes where
  MouseButton := Fin 5
  KeyModifiers := FlagSet (0x0F : BitVec 8)
  KeyFlags := Unit
  ControllerType := Bool
  ControllerButtons := FlagSet (0xFFFF : BitVec 32)
  ControllerCapabilities := FlagSet (0xFF : BitVec 16)
  buttonAsU8 button := UInt8.ofNat (button.val + 1)
  buttonFromU8 code :=
    if h : 1 ≤ code.toNat ∧ code.toNat ≤ 5 then some ⟨code.toNat - 1, by omega⟩ else none
  modifiersBits flags := Int8.ofBitVec flags.val
  modifiersFromBits bits := FlagSet.fromBits _ bits.toBitVec
  modifiersEmpty := ⟨0, by decide⟩
  flagsEmpty := ()
  controllerUnknown := false
  buttonsBits flags := UInt32.ofBitVec flags.val
  buttonsFromBits bits := FlagSet.fromBits _ bits.toBitVec
  buttonsAll := ⟨0xFFFF, by decide⟩
  capabilitiesBits flags := UInt16.ofBitVec flags.val
  capabilitiesFromBits bits := FlagSet.fromBits _ bits.toBitVec
  capabilitiesEmpty := ⟨0, by decide⟩
  messageFromStr text := if text = "\"Stop\"" then some .stop else none

-- What the wire relies on: each type accepts the bits it produces, and the
-- message is parsed from its own text.
structure WireTypes.Lawful (types : WireTypes) : Prop where
  button : ∀ button, types.buttonFromU8 (types.buttonAsU8 button) = some button
  modifiers : ∀ flags, types.modifiersFromBits (types.modifiersBits flags) = some flags
  buttons : ∀ flags, types.buttonsFromBits (types.buttonsBits flags) = some flags
  capabilities : ∀ flags, types.capabilitiesFromBits (types.capabilitiesBits flags) = some flags
  message : ∀ message : GeneralClientMessage, types.messageFromStr message.toJson = some message

theorem sampleTypes_lawful : sampleTypes.Lawful where
  button := by
    intro (button : Fin 5)
    fin_cases button <;> rfl
  modifiers := FlagSet.fromBits_val
  buttons := FlagSet.fromBits_val
  capabilities := FlagSet.fromBits_val
  message := by
    rintro ⟨⟩
    simp [sampleTypes, GeneralClientMessage.toJson]

namespace InboundPacket

variable {types : WireTypes}

section Totality

theorem covers_readGeneral : Covers 0 (readGeneral : Read (Option (InboundPacket types))) := by
  apply covers_checked
  refine takes_getU16.covers_bind (by decide) fun _ => ?_
  refine covers_getUtf8Raw _ fun result => ?_
  cases result with
  | error e => exact covers_pure _
  | ok json =>
    dsimp only
    split <;> exact covers_pure _

theorem covers_readHostVideo : Covers 0 (readHostVideo : Read (Option (InboundPacket types))) := by
  apply covers_checked
  refine takes_getU8.covers_bind (by decide) fun _ => ?_
  split <;> exact covers_pure _

theorem covers_readMouseMove : Covers 0 (readMouseMove : Read (Option (InboundPacket types))) := by
  apply covers_checked
  refine takes_getI16.covers_bind (by decide) fun _ => ?_
  refine takes_getI16.covers_bind (by decide) fun _ => ?_
  exact covers_pure _

theorem covers_readMousePosition :
    Covers 0 (readMousePosition : Read (Option (InboundPacket types))) := by
  apply covers_checked
  refine takes_getI16.covers_bind (by decide) fun _ => ?_
  refine takes_getI16.covers_bind (by decide) fun _ => ?_
  refine takes_getI16.covers_bind (by decide) fun _ => ?_
  refine takes_getI16.covers_bind (by decide) fun _ => ?_
  exact covers_pure _

theorem covers_readMouseButton :
    Covers 0 (readMouseButton : Read (Option (InboundPacket types))) := by
  apply covers_checked
  refine takes_getBool.covers_bind (by decide) fun _ => ?_
  refine takes_getU8.covers_bind (by decide) fun _ => ?_
  split <;> exact covers_pure _

theorem covers_readHighResScroll :
    Covers 0 (readHighResScroll : Read (Option (InboundPacket types))) := by
  apply covers_checked
  refine takes_getI16.covers_bind (by decide) fun _ => ?_
  refine takes_getI16.covers_bind (by decide) fun _ => ?_
  exact covers_pure _

theorem covers_readScroll : Covers 0 (readScroll : Read (Option (InboundPacket types))) := by
  apply covers_checked
  refine takes_getI8.covers_bind (by decide) fun _ => ?_
  refine takes_getI8.covers_bind (by decide) fun _ => ?_
  exact covers_pure _

theorem covers_readMouse : Covers 0 (readMouse : Read (Option (InboundPacket types))) := by
  apply covers_checked
  refine takes_getU8.covers_bind (by decide) fun _ => ?_
  split
  · exact covers_readMouseMove
  · split
    · exact covers_readMousePosition
    · split
      · exact covers_readMouseButton
      · split
        · exact covers_readHighResScroll
        · split
          · exact covers_readScroll
          · exact covers_pure _

theorem covers_readKey : Covers 0 (readKey : Read (Option (InboundPacket types))) := by
  apply covers_checked
  refine takes_getBool.covers_bind (by decide) fun _ => ?_
  refine takes_getU8.covers_bind (by decide) fun _ => ?_
  refine takes_getU16.covers_bind (by decide) fun _ => ?_
  exact covers_pure _

theorem covers_readText : Covers 0 (readText : Read (Option (InboundPacket types))) := by
  apply covers_checked
  refine takes_getU8.covers_bind (by decide) fun _ => ?_
  refine covers_getUtf8Raw _ fun result => ?_
  cases result <;> exact covers_pure _

theorem covers_readKeyboard : Covers 0 (readKeyboard : Read (Option (InboundPacket types))) := by
  apply covers_checked
  refine takes_getU8.covers_bind (by decide) fun _ => ?_
  split
  · exact covers_readKey
  · split
    · exact covers_readText
    · exact covers_pure _

theorem covers_readTouch : Covers 0 (readTouch : Read (Option (InboundPacket types))) := by
  apply covers_checked
  refine takes_getU8.covers_bind (by decide) fun _ => ?_
  split
  · exact covers_pure _
  · refine takes_getU32.covers_bind (by decide) fun _ => ?_
    refine takes_getF32.covers_bind (by decide) fun _ => ?_
    refine takes_getF32.covers_bind (by decide) fun _ => ?_
    refine takes_getF32.covers_bind (by decide) fun _ => ?_
    refine takes_getF32.covers_bind (by decide) fun _ => ?_
    refine takes_getF32.covers_bind (by decide) fun _ => ?_
    refine takes_getU16.covers_bind (by decide) fun _ => ?_
    exact covers_pure _

theorem covers_readControllerConnected :
    Covers 0 (readControllerConnected : Read (Option (InboundPacket types))) := by
  apply covers_checked
  refine takes_getU8.covers_bind (by decide) fun _ => ?_
  refine takes_getU32.covers_bind (by decide) fun _ => ?_
  refine takes_getU16.covers_bind (by decide) fun _ => ?_
  exact covers_pure _

theorem covers_readControllerDisconnected :
    Covers 0 (readControllerDisconnected : Read (Option (InboundPacket types))) := by
  apply covers_checked
  refine takes_getU8.covers_bind (by decide) fun _ => ?_
  exact covers_pure _

theorem covers_readControllers :
    Covers 0 (readControllers : Read (Option (InboundPacket types))) := by
  apply covers_checked
  refine takes_getU8.covers_bind (by decide) fun _ => ?_
  split
  · exact covers_readControllerConnected
  · split
    · exact covers_readControllerDisconnected
    · exact covers_pure _

theorem covers_readControllerState (gamepadId : Nat) :
    Covers 0 (readControllerState gamepadId : Read (Option (InboundPacket types))) := by
  apply covers_checked
  refine takes_getU32.covers_bind (by decide) fun _ => ?_
  split
  · exact covers_pure _
  · refine takes_getU8.covers_bind (by decide) fun _ => ?_
    refine takes_getU8.covers_bind (by decide) fun _ => ?_
    refine takes_getI16.covers_bind (by decide) fun _ => ?_
    refine takes_getI16.covers_bind (by decide) fun _ => ?_
    refine takes_getI16.covers_bind (by decide) fun _ => ?_
    refine takes_getI16.covers_bind (by decide) fun _ => ?_
    exact covers_pure _

theorem covers_readController (gamepadId : Nat) :
    Covers 0 (readController gamepadId : Read (Option (InboundPacket types))) := by
  apply covers_checked
  refine takes_getU8.covers_bind (by decide) fun _ => ?_
  split
  · exact covers_readControllerState gamepadId
  · exact covers_pure _

-- One byte is needed before the first check.
theorem covers_readRtt : Covers 1 (readRtt : Read (Option (InboundPacket types))) := by
  refine takes_getU8.covers_bind (by decide) fun _ => ?_
  split
  · apply covers_checked
    refine takes_getU16.covers_bind (by decide) fun _ => ?_
    exact covers_pure _
  · exact covers_pure _

theorem covers_readChannel (channel : UInt8) (other : channel ≠ TransportChannelId.rtt) :
    Covers 0 (readChannel channel : Read (Option (InboundPacket types))) := by
  rw [readChannel]
  refine .ite covers_readGeneral (.ite (covers_pure _) (.ite covers_readHostVideo ?_))
  refine .ite (covers_pure _) (.ite covers_readMouse (.ite covers_readKeyboard ?_))
  refine .ite covers_readTouch (.ite covers_readControllers (.ite ?_ ?_))
  · split
    · exact covers_pure _
    · exact covers_readController _
  · rw [if_neg other]
    exact covers_pure _

theorem readChannel_rtt :
    readChannel TransportChannelId.rtt = (readRtt : Read (Option (InboundPacket types))) := rfl

theorem deserialize_isSome_of_covers {channel : UInt8} {count : Nat} (bytes : List UInt8)
    (covered : Covers count (readChannel channel : Read (Option (InboundPacket types))))
    (enough : count ≤ bytes.length) :
    (deserialize channel bytes : Option (Option (InboundPacket types))).isSome := by
  rw [deserialize, Option.isSome_map]
  exact covered (ByteBuffer.new bytes) (reading_new bytes) enough

/-- The decoder returns on every channel and every byte string but an empty one on the RTT
channel, where it reads the type byte unchecked. -/
theorem deserialize_returns_iff (channel : UInt8) (bytes : List UInt8) :
    (deserialize channel bytes : Option (Option (InboundPacket types))).isSome ↔
      ¬(channel = TransportChannelId.rtt ∧ bytes = []) := by
  constructor
  · rintro returned ⟨rfl, rfl⟩
    exact absurd returned Bool.false_ne_true
  · intro sound
    by_cases rtt : channel = TransportChannelId.rtt
    · subst rtt
      have some : bytes ≠ [] := fun none => sound ⟨rfl, none⟩
      apply deserialize_isSome_of_covers bytes _ (List.length_pos_iff.mpr some)
      rw [readChannel_rtt]
      exact covers_readRtt
    · exact deserialize_isSome_of_covers bytes (covers_readChannel channel rtt) (Nat.zero_le _)

theorem deserialize_rtt_empty_panics :
    ¬ ∀ (types : WireTypes) (channel : UInt8) (bytes : List UInt8),
      (deserialize channel bytes : Option (Option (InboundPacket types))).isSome := by
  intro total
  have returned := total sampleTypes TransportChannelId.rtt []
  exact absurd returned Bool.false_ne_true

end Totality

section RoundTrip

-- The packet without what is not on the wire.
def carried : InboundPacket types → InboundPacket types
  | .key action modifiers keyCode _ => .key action modifiers keyCode types.flagsEmpty
  | .controllerConnected id _ supportedButtons capabilities =>
    .controllerConnected id types.controllerUnknown supportedButtons capabilities
  | .touch pointerId x y pressureOrDistance contactAreaMajor contactAreaMinor rotation
      eventType =>
    .touch pointerId x y pressureOrDistance contactAreaMajor contactAreaMinor
      (some (rotation.getD 0)) eventType
  | packet => packet

@[simp] theorem length_beU16 (value : UInt16) : (beU16 value).length = 2 :=
  BigEndian.length_bytes 2 _

@[simp] theorem length_beI16 (value : Int16) : (beI16 value).length = 2 :=
  BigEndian.length_bytes 2 _

@[simp] theorem length_beU32 (value : UInt32) : (beU32 value).length = 4 :=
  BigEndian.length_bytes 4 _

theorem value_beU16 (value : UInt16) : UInt16.ofNat (BigEndian.value (beU16 value)) = value := by
  rw [beU16, BigEndian.value_bytes, Nat.mod_eq_of_lt (show _ < 256 ^ 2 from value.toNat_lt),
    UInt16.ofNat_toNat]

theorem value_beI16 (value : Int16) :
    (UInt16.ofNat (BigEndian.value (beI16 value))).toInt16 = value := by
  rw [beI16, value_beU16]
  rfl

theorem value_beU32 (value : UInt32) : UInt32.ofNat (BigEndian.value (beU32 value)) = value := by
  rw [beU32, BigEndian.value_bytes, Nat.mod_eq_of_lt (show _ < 256 ^ 4 from value.toNat_lt),
    UInt32.ofNat_toNat]

variable {β : Type} {left : List UInt8} {value : β}

theorem yields_u8 {f : UInt8 → Read β} (byte : UInt8) (next : Yields (f byte) left value) :
    Yields (getU8 >>= f) ([byte] ++ left) value :=
  takes_getU8.yields_bind rfl next

theorem yields_bool {f : Bool → Read β} (b : Bool) (next : Yields (f b) left value) :
    Yields (getBool >>= f) ([boolByte b] ++ left) value := by
  have byte : (boolByte b != 0) = b := by cases b <;> rfl
  exact takes_getBool.yields_bind rfl (by simpa only [List.headD_cons, byte] using next)

theorem yields_i8 {f : Int8 → Read β} (n : Int8) (next : Yields (f n) left value) :
    Yields (getI8 >>= f) ([n.toUInt8] ++ left) value :=
  takes_getI8.yields_bind rfl next

theorem yields_u16 {f : UInt16 → Read β} (n : UInt16) (next : Yields (f n) left value) :
    Yields (getU16 >>= f) (beU16 n ++ left) value :=
  takes_getU16.yields_bind (length_beU16 n) (by rwa [value_beU16])

theorem yields_i16 {f : Int16 → Read β} (n : Int16) (next : Yields (f n) left value) :
    Yields (getI16 >>= f) (beI16 n ++ left) value :=
  takes_getI16.yields_bind (length_beI16 n) (by rwa [value_beI16])

theorem yields_u32 {f : UInt32 → Read β} (n : UInt32) (next : Yields (f n) left value) :
    Yields (getU32 >>= f) (beU32 n ++ left) value :=
  takes_getU32.yields_bind (length_beU32 n) (by rwa [value_beU32])

theorem yields_f32 {f : F32 → Read β} (n : F32) (next : Yields (f n) left value) :
    Yields (getF32 >>= f) (beU32 n.bits ++ left) value :=
  takes_getF32.yields_bind (length_beU32 n.bits) (by rwa [value_beU32])

-- The last field of a message has nothing behind it.
theorem yields_of_last {q : Read β} {input : List UInt8} (h : Yields q (input ++ []) value) :
    Yields q input value := by
  rwa [List.append_nil] at h

theorem deserialize_of_yields {channel : UInt8} {bytes : List UInt8}
    {result : Option (InboundPacket types)} (h : Yields (readChannel channel) bytes result) :
    deserialize channel bytes = some result := by
  obtain ⟨b, read⟩ := h (ByteBuffer.new bytes) (reading_new bytes) (rest_new bytes)
  rw [deserialize, StateT.run, read]
  rfl

theorem yields_mouseMove (deltaX deltaY : Int16) :
    Yields readMouse ([0] ++ beI16 deltaX ++ beI16 deltaY)
      (some (.mouseMove deltaX deltaY : InboundPacket types)) := by
  apply yields_of_last
  apply yields_checked (by simp)
  simp only [List.append_assoc]
  apply yields_u8
  apply yields_checked (by simp)
  apply yields_i16
  apply yields_i16
  apply yields_pure

theorem yields_mousePosition (x y referenceWidth referenceHeight : Int16) :
    Yields readMouse ([1] ++ beI16 x ++ beI16 y ++ beI16 referenceWidth ++ beI16 referenceHeight)
      (some (.mousePosition x y referenceWidth referenceHeight : InboundPacket types)) := by
  apply yields_of_last
  apply yields_checked (by simp)
  simp only [List.append_assoc]
  apply yields_u8
  apply yields_checked (by simp)
  apply yields_i16
  apply yields_i16
  apply yields_i16
  apply yields_i16
  apply yields_pure

theorem yields_mouseButton (lawful : types.Lawful) (action : MouseButtonAction)
    (button : types.MouseButton) :
    Yields readMouse ([2] ++ [boolByte (action = .press)] ++ [types.buttonAsU8 button])
      (some (.mouseButton action button : InboundPacket types)) := by
  apply yields_of_last
  apply yields_checked (by simp)
  simp only [List.append_assoc]
  apply yields_u8
  apply yields_checked (by simp)
  apply yields_bool
  apply yields_u8
  rw [lawful.button]
  cases action <;> apply yields_pure

theorem yields_highResScroll (deltaX deltaY : Int16) :
    Yields readMouse ([3] ++ beI16 deltaX ++ beI16 deltaY)
      (some (.highResScroll deltaX deltaY : InboundPacket types)) := by
  apply yields_of_last
  apply yields_checked (by simp)
  simp only [List.append_assoc]
  apply yields_u8
  apply yields_checked (by simp)
  apply yields_i16
  apply yields_i16
  apply yields_pure

theorem yields_scroll (deltaX deltaY : Int8) :
    Yields readMouse ([4] ++ [deltaX.toUInt8] ++ [deltaY.toUInt8])
      (some (.scroll deltaX deltaY : InboundPacket types)) := by
  apply yields_of_last
  apply yields_checked (by simp)
  simp only [List.append_assoc]
  apply yields_u8
  apply yields_checked (by simp)
  apply yields_i8
  apply yields_i8
  apply yields_pure

theorem yields_key (lawful : types.Lawful) (action : KeyAction)
    (modifiers : types.KeyModifiers) (keyCode : UInt16) :
    Yields readKeyboard ([0] ++ [boolByte (action = .down)] ++
      [(types.modifiersBits modifiers).toUInt8] ++ beU16 keyCode)
      (some (.key action modifiers keyCode types.flagsEmpty : InboundPacket types)) := by
  apply yields_of_last
  apply yields_checked (by simp)
  simp only [List.append_assoc]
  apply yields_u8
  apply yields_checked (by simp)
  apply yields_bool
  apply yields_u8
  apply yields_u16
  have bits : (types.modifiersBits modifiers).toUInt8.toInt8 = types.modifiersBits modifiers := rfl
  rw [bits, lawful.modifiers]
  cases action <;> apply yields_pure

theorem yields_text (text : List Char) (count : UInt8) :
    Yields readKeyboard ([1] ++ [count] ++ Utf8.encode text)
      (match utf8Raw count.toNat (Utf8.encode text) with
        | .error _ => none
        | .ok typed => some (.text typed : InboundPacket types)) := by
  apply yields_checked (by simp)
  simp only [List.append_assoc]
  apply yields_u8
  apply yields_checked (by simp)
  apply yields_u8
  apply yields_getUtf8Raw
  cases utf8Raw count.toNat (Utf8.encode text) <;> apply yields_pure

theorem yields_controllerConnected (lawful : types.Lawful) (id : UInt8)
    (supportedButtons : types.ControllerButtons) (capabilities : types.ControllerCapabilities) :
    Yields readControllers ([0] ++ [id] ++ beU32 (types.buttonsBits supportedButtons) ++
      beU16 (types.capabilitiesBits capabilities))
      (some (.controllerConnected id types.controllerUnknown supportedButtons capabilities : InboundPacket types)) := by
  apply yields_of_last
  apply yields_checked (by simp)
  simp only [List.append_assoc]
  apply yields_u8
  apply yields_checked (by simp)
  apply yields_u8
  apply yields_u32
  apply yields_u16
  rw [lawful.buttons, lawful.capabilities]
  apply yields_pure

theorem yields_controllerDisconnected (id : UInt8) :
    Yields readControllers ([1] ++ [id])
      (some (.controllerDisconnected id : InboundPacket types)) := by
  apply yields_of_last
  apply yields_checked (by simp)
  simp only [List.append_assoc]
  apply yields_u8
  apply yields_checked (by simp)
  apply yields_u8
  apply yields_pure

theorem yields_controllerState (lawful : types.Lawful) (id : UInt8)
    (buttons : types.ControllerButtons) (leftTrigger rightTrigger : UInt8)
    (leftStickX leftStickY rightStickX rightStickY : Int16) :
    Yields (readController id.toNat) ([0] ++ beU32 (types.buttonsBits buttons) ++ [leftTrigger] ++ [rightTrigger] ++
      beI16 leftStickX ++ beI16 leftStickY ++ beI16 rightStickX ++ beI16 rightStickY)
      (some (.controllerState id buttons leftTrigger rightTrigger leftStickX leftStickY rightStickX
        rightStickY : InboundPacket types)) := by
  apply yields_of_last
  apply yields_checked (by simp)
  simp only [List.append_assoc]
  apply yields_u8
  apply yields_checked (by simp)
  apply yields_u32
  rw [lawful.buttons]
  dsimp only
  apply yields_u8
  apply yields_u8
  apply yields_i16
  apply yields_i16
  apply yields_i16
  apply yields_i16
  rw [UInt8.ofNat_toNat]
  apply yields_pure

theorem yields_touch (code : UInt8) (eventType : TouchEventType)
    (known : touchEventType code = some eventType) (pointerId : UInt32)
    (x y pressureOrDistance contactAreaMajor contactAreaMinor : F32) (rotation : UInt16) :
    Yields readTouch
      ([code] ++ beU32 pointerId ++ beU32 x.bits ++ beU32 y.bits ++
        beU32 pressureOrDistance.bits ++ beU32 contactAreaMajor.bits ++
        beU32 contactAreaMinor.bits ++ beU16 rotation)
      (some (.touch pointerId x y pressureOrDistance contactAreaMajor contactAreaMinor
        (some rotation) eventType : InboundPacket types)) := by
  apply yields_of_last
  apply yields_checked (by simp)
  simp only [List.append_assoc]
  apply yields_u8
  rw [known]
  dsimp only
  apply yields_u32
  apply yields_f32
  apply yields_f32
  apply yields_f32
  apply yields_f32
  apply yields_f32
  apply yields_u16
  apply yields_pure

-- The text of the message is ASCII: its bytes and its characters count the same.
theorem yields_general (lawful : types.Lawful) (message : GeneralClientMessage) :
    Yields readGeneral
      (beU16 (UInt16.ofNat (Utf8.encode message.toJson.toList).length) ++
        Utf8.encode message.toJson.toList)
      (some (.general message : InboundPacket types)) := by
  have count : (UInt16.ofNat (Utf8.encode message.toJson.toList).length).toNat =
      message.toJson.toList.length := by
    cases message
    decide
  have json : utf8Raw (UInt16.ofNat (Utf8.encode message.toJson.toList).length).toNat
      (Utf8.encode message.toJson.toList) = .ok message.toJson := by
    rw [(utf8Raw_encode_iff _ _).mpr count, String.ofList_toList]
  apply yields_checked (by simp)
  apply yields_u16
  apply yields_getUtf8Raw
  rw [json]
  dsimp only
  rw [lawful.message]
  apply yields_pure

theorem readChannel_controller (index : Nat) (channel : UInt8)
    (found : controllerChannels[index]? = some channel) :
    readChannel channel = (readController index : Read (Option (InboundPacket types))) := by
  have bound : index < 16 := (List.getElem?_eq_some_iff.mp found).1
  interval_cases index <;> (cases found; rfl)

theorem deserialize_of_encode (lawful : types.Lawful) (packet : InboundPacket types)
    (channel : UInt8) (bytes : List UInt8) (written : packet.encode = some (channel, bytes)) :
    deserialize channel bytes = some (some packet.carried) := by
  apply deserialize_of_yields
  cases packet with
  | general message =>
    simp only [encode] at written
    split at written
    · cases written
      exact yields_general lawful message
    · cases written
  | mouseMove deltaX deltaY =>
    cases written
    exact yields_mouseMove deltaX deltaY
  | mousePosition x y referenceWidth referenceHeight =>
    cases written
    exact yields_mousePosition x y referenceWidth referenceHeight
  | mouseButton action button =>
    cases written
    exact yields_mouseButton lawful action button
  | highResScroll deltaX deltaY =>
    cases written
    exact yields_highResScroll deltaX deltaY
  | scroll deltaX deltaY =>
    cases written
    exact yields_scroll deltaX deltaY
  | key action modifiers keyCode flags =>
    cases written
    exact yields_key lawful action modifiers keyCode
  | text typed =>
    simp only [encode] at written
    split at written
    next small =>
      cases written
      have count : (UInt8.ofNat typed.toList.length).toNat = typed.toList.length := by
        rw [UInt8.toNat_ofNat', Nat.mod_eq_of_lt small]
      have read := @yields_text types typed.toList (UInt8.ofNat typed.toList.length)
      rw [(utf8Raw_encode_iff _ _).mpr count, String.ofList_toList] at read
      exact read
    next => cases written
  | controllerConnected id ty supportedButtons capabilities =>
    cases written
    exact yields_controllerConnected lawful id supportedButtons capabilities
  | controllerDisconnected id =>
    cases written
    exact yields_controllerDisconnected id
  | controllerState id buttons leftTrigger rightTrigger leftStickX leftStickY rightStickX
      rightStickY =>
    simp only [encode] at written
    split at written
    next => cases written
    next found =>
      cases written
      rw [readChannel_controller _ _ found]
      exact yields_controllerState lawful id buttons leftTrigger rightTrigger leftStickX
        leftStickY rightStickX rightStickY
  | touch pointerId x y pressureOrDistance contactAreaMajor contactAreaMinor rotation eventType =>
    cases eventType with
    | down =>
      cases written
      exact yields_touch 0 .down rfl pointerId x y _ _ _ _
    | move =>
      cases written
      exact yields_touch 1 .move rfl pointerId x y _ _ _ _
    | cancel =>
      cases written
      exact yields_touch 2 .cancel rfl pointerId x y _ _ _ _
    | other code => cases written
  | rtt sequenceNumber =>
    cases written
    apply yields_of_last
    simp only [List.append_assoc]
    apply yields_u8
    apply yields_checked (by simp)
    apply yields_u16
    apply yields_pure
  | requestVideoIdr =>
    cases written
    apply yields_checked (by simp)
    apply yields_u8 0
    apply yields_pure

/-- The decoder gives a text back exactly when the count is its number of characters. -/
theorem deserialize_text_iff (typed : String) (count : UInt8) :
    deserialize TransportChannelId.keyboard ([1] ++ [count] ++ Utf8.encode typed.toList) =
        some (some (.text typed : InboundPacket types)) ↔
      count.toNat = typed.toList.length := by
  have keyboard : readChannel TransportChannelId.keyboard =
      (readKeyboard : Read (Option (InboundPacket types))) := rfl
  have read := deserialize_of_yields (keyboard ▸ @yields_text types typed.toList count)
  rw [read, ← utf8Raw_encode_iff, String.ofList_toList]
  cases utf8Raw count.toNat (Utf8.encode typed.toList) with
  | error e => simp
  | ok found => simp

theorem encode_text_isSome_iff (typed : String) :
    (InboundPacket.text typed : InboundPacket types).encode.isSome ↔ typed.toList.length ≤ 255 := by
  simp only [encode]
  split
  · simp only [Option.isSome_some, true_iff]
    omega
  · simp only [Option.isSome_none, Bool.false_eq_true, false_iff]
    omega

/-- What the encoder writes is read back, but for the fields that are not on the wire; and
every text of up to 255 characters can be written. -/
theorem deserialize_encode (lawful : types.Lawful) :
    (∀ (packet : InboundPacket types) (channel : UInt8) (bytes : List UInt8),
      packet.encode = some (channel, bytes) →
        deserialize channel bytes = some (some packet.carried)) ∧
    (∀ typed : String, typed.toList.length ≤ 255 →
      (InboundPacket.text typed : InboundPacket types).encode.isSome) :=
  ⟨deserialize_of_encode lawful, fun typed => (encode_text_isSome_iff typed).mpr⟩

theorem deserialize_encode_sampleTypes :
    (∀ (packet : InboundPacket sampleTypes) (channel : UInt8) (bytes : List UInt8),
      packet.encode = some (channel, bytes) →
        deserialize channel bytes = some (some packet.carried)) ∧
    (∀ typed : String, typed.toList.length ≤ 255 →
      (InboundPacket.text typed : InboundPacket sampleTypes).encode.isSome) :=
  deserialize_encode sampleTypes_lawful

end RoundTrip

end InboundPacket

end BetterParsec
