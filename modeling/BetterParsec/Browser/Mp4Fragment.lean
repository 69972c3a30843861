import BetterParsec.Browser.TranslatorAgreement

set_option autoImplicit false
set_option linter.all false

/-!
# The fragments of the media source decoder

`putVideoFrameSegment` of `web/stream/video/media_source_decoder.ts` and the box writers
below it. A box is begun with a length of zero, which is stored when its contents are
written; `putU64` moves the position over twice its bytes.
-/

namespace BetterParsec

namespace Mp4Fragment

open BrowserBuffer (Own)
open Translator (h264NalType)

abbrev Buffer := BrowserBuffer.ByteBuffer

-- The writers share a buffer, and any of them may throw.
abbrev Writer (α : Type) := StateT Buffer (Except String) α

section Writers

def getPosition : Writer Nat := do return (← get).position

def put (call : Buffer → Except String Buffer) : Writer Unit := do set (← call (← get))

def putU8 (data : UInt8) : Writer Unit := put fun b => b.putU8 data none

def putU32 (data : UInt32) (index : Option Nat) : Writer Unit := put fun b => b.putU32 data index

def putI32 (data : Int32) (index : Option Nat) : Writer Unit := put fun b => b.putI32 data index

def putU64 (data : UInt64) : Writer Unit := put fun b => b.putU64 data none

def putU8Array (data : List UInt8) : Writer Unit := put fun b => b.putU8Array data none

def putUtf8Raw (text : List Char) : Writer Unit := put fun b => b.putUtf8Raw (Utf16.encode text)

end Writers

section Boxes

variable {α : Type}

def putBox (type : List Char) (write : Writer α) : Writer α := do
  let payloadLenPosition ← getPosition
  putU32 0 none
  if (Utf16.encode type).length ≠ 4 then throw "invalid box type length!"
  else do
    putUtf8Raw type
    let written ← write
    let position ← getPosition
    putU32 (UInt32.ofNat (position - payloadLenPosition)) (some payloadLenPosition)
    return written

def putFullBox (type : List Char) (version flags : Nat) (write : Writer α) : Writer α :=
  if version > 0xFF then throw "FullBox version must be 0-255"
  else if flags > 0xFFFFFF then throw "FullBox flags must be 0-0xFFFFFF"
  else putBox type do
    putU8 (UInt8.ofNat version)
    putU8 (UInt8.ofNat (flags / 2 ^ 16))
    putU8 (UInt8.ofNat (flags / 2 ^ 8))
    putU8 (UInt8.ofNat flags)
    write

def putMfhdBox (sequenceNumber : Nat) : Writer Unit :=
  putFullBox ['m', 'f', 'h', 'd'] 0 0 (putU32 (UInt32.ofNat sequenceNumber) none)

-- Flags: default-base-is-moof.
def putTfhdBox (trackId : UInt32) : Writer Unit :=
  putFullBox ['t', 'f', 'h', 'd'] 0 0x020000 (putU32 trackId none)

def putTfdtBox (version : Nat) (baseDecodeTime : UInt64) : Writer Unit :=
  putFullBox ['t', 'f', 'd', 't'] version 0
    (if version = 1 then putU64 baseDecodeTime
    else if version = 0 then putU32 (UInt32.ofNat baseDecodeTime.toNat) none
    else throw "invalid version for tfdt")

def trunFlags (isFirstSample : Bool) : Nat :=
  0x000001 ||| 0x000100 ||| 0x000200 ||| if isFirstSample then 0x000004 else 0x000400

def sampleFlags (isKeyframe : Bool) : UInt32 := if isKeyframe then 0x02000000 else 0x01010000

-- It returns the position of the data offset.
def putTrunBox (frameDuration frameSize : UInt32) (isKeyframe isFirstSample : Bool) : Writer Nat :=
  putFullBox ['t', 'r', 'u', 'n'] 0 (trunFlags isFirstSample) do
    putU32 1 none
    let dataOffsetPosition ← getPosition
    putI32 0 none
    if isFirstSample then putU32 (sampleFlags isKeyframe) none else pure ()
    putU32 frameDuration none
    putU32 frameSize none
    if isFirstSample then pure () else putU32 (sampleFlags isKeyframe) none
    return dataOffsetPosition

def putMdatBox (frame : List UInt8) : Writer Unit := putBox ['m', 'd', 'a', 't'] (putU8Array frame)

-- The type of a byte that is not there is zero.
def putVideoFrameSegment (trackId : UInt32) (sequenceNumber : Nat) (baseDecodeTime : UInt64)
    (frameDuration : UInt32) (isKeyframe : Bool) (frame : List UInt8) : Writer Unit :=
  if isKeyframe ∧ h264NalType (frame.getD 4 0) ≠ 5 then throw "tried to submit non idr as a keyframe"
  else do
    let moofPosition ← getPosition
    let dataOffsetPosition ← putBox ['m', 'o', 'o', 'f'] do
      putMfhdBox sequenceNumber
      putBox ['t', 'r', 'a', 'f'] do
        putTfhdBox trackId
        putTfdtBox 1 baseDecodeTime
        putTrunBox frameDuration (UInt32.ofNat frame.length) isKeyframe (sequenceNumber = 1)
    let dataStart ← getPosition
    putI32 (Int32.ofNat (dataStart - moofPosition + 8)) (some dataOffsetPosition)
    putMdatBox frame

-- A fragment in a buffer of its own.
def fragment (capacity : Nat) (trackId : UInt32) (sequenceNumber : Nat) (baseDecodeTime : UInt64)
    (frameDuration : UInt32) (isKeyframe : Bool) (frame : List UInt8) :
    Except String (List UInt8) := do
  let ((), b) ← (putVideoFrameSegment trackId sequenceNumber baseDecodeTime frameDuration isKeyframe
    frame).run (.new capacity false)
  pure b.flip.getRemainingBuffer

end Boxes

section Filling

variable {α β : Type} {b b' : Buffer} {written field : List UInt8} {left : Nat}

-- A buffer that is filled up to its position, with zeros behind it.
structure Filled (b : Buffer) (written : List UInt8) (left : Nat) : Prop where
  own : Own b
  bigEndian : b.littleEndian = false
  memory : b.buffer.memory = written ++ List.replicate left 0
  position : b.position = written.length

theorem filled_new (capacity : Nat) : Filled (.new capacity false) [] capacity :=
  ⟨BrowserBuffer.own_new capacity false, rfl, rfl, rfl⟩

theorem Filled.capacity (filled : Filled b written left) :
    b.buffer.length = written.length + left := by
  rw [filled.own.whole, filled.memory, List.length_append, List.length_replicate]

theorem Filled.remaining (filled : Filled b written left) :
    b.flip.getRemainingBuffer = written := by
  rw [BrowserBuffer.remaining_flip filled.own, filled.memory, filled.position, List.take_left]

-- Storing a field over the zeros.
theorem Filled.store (filled : Filled b written (field.length + left)) (limit : Nat) :
    Filled ⟨b.position + field.length, limit, b.littleEndian, b.buffer.store b.position field⟩
      (written ++ field) left := by
  have room : b.position + field.length ≤ b.buffer.memory.length := by
    rw [filled.memory, filled.position, List.length_append, List.length_replicate]
    omega
  refine ⟨filled.own.store _ _ _ _, filled.bigEndian, ?_, ?_⟩
  · rw [BrowserBuffer.store_own room, filled.memory, filled.position,
      LittleEndian.overwrite_zeros _ _ _ _ rfl, Nat.add_sub_cancel_left]
  · rw [List.length_append, filled.position]

theorem Filled.putField (filled : Filled b written (field.length + left)) :
    ∃ b', b.putField field none = .ok b' ∧ Filled b' (written ++ field) left := by
  have room : ¬ b.position + field.length > b.buffer.length := by
    rw [filled.capacity, filled.position]
    omega
  refine ⟨_, ?_, filled.store
    (if b.position + field.length > b.limit then b.position + field.length else b.limit)⟩
  simp [BrowserBuffer.ByteBuffer.putField, BrowserBuffer.ByteBuffer.useDataView,
    BrowserBuffer.ByteBuffer.bytesUsed, BrowserBuffer.ByteBuffer.set, room, bind, Except.bind, pure,
    Except.pure]

theorem Filled.putU8Array (filled : Filled b written (field.length + left)) :
    ∃ b', b.putU8Array field none = .ok b' ∧ Filled b' (written ++ field) left := by
  have room : ¬ b.position + field.length > b.buffer.length := by
    rw [filled.capacity, filled.position]
    omega
  refine ⟨_, ?_, filled.store
    (if b.position + field.length > b.limit then b.position + field.length else b.limit)⟩
  simp [BrowserBuffer.ByteBuffer.putU8Array, BrowserBuffer.ByteBuffer.bytesUsed,
    BrowserBuffer.ByteBuffer.set, room, filled.own.start]

-- A field that was written before is stored again.
theorem Filled.patch {before old after : List UInt8} (same : field.length = old.length)
    (filled : Filled b (before ++ old ++ after) left) :
    ∃ b', b.putField field (some before.length) = .ok b' ∧
      Filled b' (before ++ field ++ after) left := by
  have whole : b.buffer.memory.length =
      before.length + old.length + after.length + left := by
    rw [filled.memory]
    simp only [List.length_append, List.length_replicate]
  have room : ¬ before.length + field.length > b.buffer.length := by
    rw [filled.own.whole, whole]
    omega
  have behind : (before ++ old ++ after ++ List.replicate left 0).drop
      (before.length + field.length) = after ++ List.replicate left 0 := by
    rw [same, ← List.drop_drop, List.append_assoc, List.append_assoc, List.drop_left,
      List.drop_left]
  have front : (before ++ old ++ after ++ List.replicate left 0).take before.length = before := by
    rw [List.append_assoc, List.append_assoc, List.take_left]
  refine ⟨⟨b.position, if before.length + field.length > b.limit then before.length + field.length
      else b.limit, b.littleEndian, b.buffer.store before.length field⟩, ?_,
    filled.own.store _ _ _ _, filled.bigEndian, ?_, ?_⟩
  · simp [BrowserBuffer.ByteBuffer.putField, BrowserBuffer.ByteBuffer.useDataView,
      BrowserBuffer.ByteBuffer.set, room, bind, Except.bind, pure, Except.pure]
  · rw [BrowserBuffer.store_own (by rw [whole]; omega), filled.memory, LittleEndian.overwrite, behind,
      front, List.append_assoc (before ++ field)]
  · rw [filled.position]
    simp only [List.length_append, same]

theorem Filled.skip {gap : Nat} (filled : Filled b written (gap + left)) :
    Filled ⟨b.position + gap, b.limit, b.littleEndian, b.buffer⟩ (written ++ List.replicate gap 0)
      left := by
  refine ⟨⟨filled.own.start, filled.own.whole⟩, filled.bigEndian, ?_, ?_⟩
  · rw [filled.memory, List.replicate_add, List.append_assoc]
  · rw [List.length_append, List.length_replicate, filled.position]

-- Eight bytes, and eight of the zeros behind them.
theorem Filled.putU64 (data : UInt64) (filled : Filled b written (16 + left)) :
    ∃ b', b.putU64 data none = .ok b' ∧
      Filled b' (written ++ (BigEndian.bytes 8 data.toNat ++ List.replicate 8 0)) left := by
  have room : ¬ b.position + 8 > b.buffer.length := by
    rw [filled.capacity, filled.position]
    omega
  let limit := if b.position + 8 > b.limit then b.position + 8 else b.limit
  have high : Filled b written ((BigEndian.bytes 4 (data.toNat / 0x100000000)).length +
      (4 + (8 + left))) := by
    rw [BigEndian.length_bytes]
    convert filled using 1
    omega
  have low : Filled ⟨b.position + 4, limit, b.littleEndian,
        b.buffer.store b.position (BigEndian.bytes 4 (data.toNat / 0x100000000))⟩
      (written ++ BigEndian.bytes 4 (data.toNat / 0x100000000))
      ((BigEndian.bytes 4 (data.toNat % 0x100000000)).length + (8 + left)) := by
    have stored := high.store limit
    rw [BigEndian.length_bytes] at stored ⊢
    exact stored
  have whole := (low.store limit).skip
  rw [BigEndian.length_bytes] at whole
  have halves : BigEndian.bytes 8 data.toNat = BigEndian.bytes 4 (data.toNat / 0x100000000) ++
      BigEndian.bytes 4 (data.toNat % 0x100000000) := BrowserBuffer.fieldOf_halves false data.toNat
  refine ⟨_, ?_, by rw [halves]; simpa only [List.append_assoc] using whole⟩
  simp [BrowserBuffer.ByteBuffer.putU64, BrowserBuffer.ByteBuffer.useDataView,
    BrowserBuffer.ByteBuffer.bytesUsed, BrowserBuffer.ByteBuffer.set, room, filled.bigEndian, limit,
    bind, Except.bind, pure, Except.pure, BrowserBuffer.fieldOf]

theorem Filled.putUtf8Raw {text : List Char}
    (filled : Filled b written ((Utf8.encode text).length + left)) :
    ∃ b', b.putUtf8Raw (Utf16.encode text) = .ok b' ∧
      Filled b' (written ++ Utf8.encode text) left := by
  have room : b.buffer.length - b.position = (Utf8.encode text).length + left := by
    rw [filled.capacity, filled.position, Nat.add_sub_cancel_left]
  have all := BrowserInput.encodeInto_fits text (b.buffer.length - b.position)
    (by rw [room]; omega)
  have count := BrowserBuffer.utf16Length_decode (Utf16.encode text)
  rw [Utf16.decode_encode] at count
  refine ⟨_, ?_, filled.store b.limit⟩
  simp [BrowserBuffer.ByteBuffer.putUtf8Raw, BrowserBuffer.ByteBuffer.bytesUsed,
    BrowserBuffer.ByteBuffer.set, Utf16.decode_encode, all, count, filled.own.start, bind,
    Except.bind]

end Filling

section Rules

variable {α β : Type} {write : Writer α} {next : α → Writer β} {bytes later : List UInt8}
  {value : Nat → α} {result : Nat → Nat → β}

-- The writer appends the bytes where there is room for them; what it returns depends on the
-- position.
def Appends (write : Writer α) (bytes : List UInt8) (value : Nat → α) : Prop :=
  ∀ b written left, Filled b written (bytes.length + left) →
    ∃ b', write b = .ok (value written.length, b') ∧ Filled b' (written ++ bytes) left

theorem Appends.bind (first : Appends write bytes value)
    (second : ∀ position, Appends (next (value position)) later (result position)) :
    Appends (write >>= next) (bytes ++ later) fun position =>
      result position (position + bytes.length) := by
  intro b written left filled
  rw [List.length_append, Nat.add_assoc] at filled
  obtain ⟨b', called, half⟩ := first b written (later.length + left) filled
  obtain ⟨b'', again, whole⟩ := second written.length b' (written ++ bytes) left half
  rw [List.length_append] at again
  refine ⟨b'', ?_, by rwa [← List.append_assoc]⟩
  change (write b >>= fun called => next called.1 called.2) = _
  rw [called]
  exact again

theorem appends_pure (value : α) : Appends (pure value) [] fun _ => value := by
  intro b written left filled
  exact ⟨b, rfl, by simpa using filled⟩

theorem appends_getPosition : Appends getPosition [] id := by
  intro b written left filled
  refine ⟨b, ?_, by simpa using filled⟩
  rw [id, ← filled.position]
  rfl

theorem put_ok {call : Buffer → Except String Buffer} {b b' : Buffer}
    (called : call b = .ok b') : put call b = .ok ((), b') := by
  simp only [put, bind, StateT.bind, get, getThe, MonadStateOf.get, StateT.get, pure, Except.pure,
    Except.bind, liftM, monadLift, MonadLift.monadLift, StateT.lift, called, set, StateT.set]

theorem appends_put {call : Buffer → Except String Buffer}
    (calls : ∀ b written left, Filled b written (bytes.length + left) →
      ∃ b', call b = .ok b' ∧ Filled b' (written ++ bytes) left) :
    Appends (put call) bytes fun _ => () := by
  intro b written left filled
  obtain ⟨b', called, after⟩ := calls b written left filled
  exact ⟨b', put_ok called, after⟩

theorem appends_putU8 (data : UInt8) : Appends (putU8 data) [data] fun _ => () :=
  appends_put fun _ _ _ filled => filled.putField

theorem appends_putU32 (data : UInt32) :
    Appends (putU32 data none) (BigEndian.bytes 4 data.toNat) fun _ => () := by
  refine appends_put fun b written left filled => ?_
  have field : BrowserBuffer.fieldOf b.littleEndian 4 data.toNat = BigEndian.bytes 4 data.toNat := by
    rw [filled.bigEndian]
    rfl
  rw [BrowserBuffer.ByteBuffer.putU32, field]
  exact filled.putField

theorem appends_putI32 (data : Int32) :
    Appends (putI32 data none) (BigEndian.bytes 4 data.toUInt32.toNat) fun _ => () :=
  appends_put fun _ _ _ filled => filled.putField

theorem appends_putU64 (data : UInt64) :
    Appends (putU64 data) (BigEndian.bytes 8 data.toNat ++ List.replicate 8 0) fun _ => () := by
  refine appends_put fun b written left filled => filled.putU64 data

theorem appends_putU8Array (data : List UInt8) : Appends (putU8Array data) data fun _ => () :=
  appends_put fun _ _ _ filled => filled.putU8Array

theorem appends_putUtf8Raw (text : List Char) :
    Appends (putUtf8Raw text) (Utf8.encode text) fun _ => () :=
  appends_put fun _ _ _ filled => filled.putUtf8Raw

theorem Appends.of_eq {bytes' : List UInt8} {value' : Nat → α} (appends : Appends write bytes value)
    (same : bytes = bytes') (values : ∀ position, value position = value' position) :
    Appends write bytes' value' := by
  obtain rfl := same
  obtain rfl : value = value' := funext values
  exact appends

end Rules

section Layout

variable {α : Type} {write : Writer α} {payload : List UInt8} {value : Nat → α} {type : List Char}

-- A box: its size, its type and its contents.
def box (type : List Char) (payload : List UInt8) : List UInt8 :=
  BigEndian.bytes 4 (8 + payload.length) ++ (Utf8.encode type ++ payload)

def fullBox (type : List Char) (version flags : Nat) (payload : List UInt8) : List UInt8 :=
  box type ([UInt8.ofNat version, UInt8.ofNat (flags / 2 ^ 16), UInt8.ofNat (flags / 2 ^ 8),
    UInt8.ofNat flags] ++ payload)

-- The names of the boxes have four characters of one byte.
def Named (type : List Char) : Prop :=
  (Utf16.encode type).length = 4 ∧ (Utf8.encode type).length = 4

instance decidableNamed (type : List Char) : Decidable (Named type) :=
  inferInstanceAs (Decidable (_ ∧ _))

theorem bind_ok {β : Type} {next : α → Writer β} {b b' : Buffer} {result : α}
    (called : write b = .ok (result, b')) : (write >>= next) b = next result b' := by
  change (write b >>= fun called => next called.1 called.2) = _
  rw [called]
  rfl

theorem patch_putU32 {b : Buffer} {before after : List UInt8} {left old : Nat} (size : Nat)
    (filled : Filled b (before ++ (BigEndian.bytes 4 old ++ after)) left) :
    ∃ b', putU32 (UInt32.ofNat size) (some before.length) b = .ok ((), b') ∧
      Filled b' (before ++ (BigEndian.bytes 4 size ++ after)) left := by
  have field : BrowserBuffer.fieldOf b.littleEndian 4 (UInt32.ofNat size).toNat =
      BigEndian.bytes 4 size := by
    rw [filled.bigEndian]
    exact Translator.bytes_ofNat size
  rw [← List.append_assoc] at filled
  obtain ⟨b', called, after⟩ := filled.patch
    (by rw [BigEndian.length_bytes, BigEndian.length_bytes] :
      (BigEndian.bytes 4 size).length = (BigEndian.bytes 4 old).length)
  refine ⟨b', put_ok ?_, by rwa [← List.append_assoc]⟩
  rw [BrowserBuffer.ByteBuffer.putU32, field]
  exact called

/-- A box around what is appended: its size is stored when the contents are there. -/
theorem putBox_appends (named : Named type) (content : Appends write payload value) :
    Appends (putBox type write) (box type payload) fun position => value (position + 8) := by
  intro b written left filled
  have start : Filled b written ((BigEndian.bytes 4 0).length +
      ((Utf8.encode type).length + (payload.length + left))) := by
    convert filled using 1
    simp only [box, List.length_append, BigEndian.length_bytes]
    omega
  obtain ⟨b1, size, filled1⟩ := appends_putU32 0 b written _ start
  obtain ⟨b2, name, filled2⟩ := appends_putUtf8Raw type b1 _ _ filled1
  obtain ⟨b3, contents, filled3⟩ := content b2 _ _ filled2
  have whole : Filled b3 (written ++ (BigEndian.bytes 4 0 ++ (Utf8.encode type ++ payload))) left := by
    simpa only [List.append_assoc, UInt32.toNat_zero] using filled3
  obtain ⟨b4, patched, filled4⟩ := patch_putU32 (8 + payload.length) whole
  refine ⟨b4, ?_, filled4⟩
  have moved : b3.position - b.position = 8 + payload.length := by
    rw [filled3.position, filled.position]
    simp only [List.length_append, BigEndian.length_bytes, named.2]
    omega
  have place : (written ++ BigEndian.bytes 4 (UInt32.toNat 0) ++ Utf8.encode type).length =
      written.length + 8 := by
    simp only [List.length_append, BigEndian.length_bytes, named.2]
  rw [← filled.position, ← moved] at patched
  rw [place] at contents
  rw [putBox, bind_ok (rfl : getPosition b = .ok (b.position, b)), bind_ok size,
    if_neg (not_not.mpr named.1), bind_ok name, bind_ok contents,
    bind_ok (rfl : getPosition b3 = .ok (b3.position, b3)), bind_ok patched]
  rfl

theorem putFullBox_appends {version flags : Nat} (named : Named type) (byte : version ≤ 0xFF)
    (bytes : flags ≤ 0xFFFFFF) (content : Appends write payload value) :
    Appends (putFullBox type version flags write) (fullBox type version flags payload)
      fun position => value (position + 12) := by
  rw [putFullBox, if_neg (Nat.not_lt.mpr byte), if_neg (Nat.not_lt.mpr bytes)]
  have header : Appends (do
      putU8 (UInt8.ofNat version)
      putU8 (UInt8.ofNat (flags / 2 ^ 16))
      putU8 (UInt8.ofNat (flags / 2 ^ 8))
      putU8 (UInt8.ofNat flags)
      write) ([UInt8.ofNat version, UInt8.ofNat (flags / 2 ^ 16), UInt8.ofNat (flags / 2 ^ 8),
        UInt8.ofNat flags] ++ payload) fun position => value (position + 4) :=
    .of_eq (.bind (appends_putU8 _) fun _ => .bind (appends_putU8 _) fun _ =>
      .bind (appends_putU8 _) fun _ => .bind (appends_putU8 _) fun _ => content) rfl fun _ => rfl
  exact putBox_appends named header

-- The contents of the boxes. Behind the eight bytes of the decode time the position is moved over
-- eight more.
def tfdtFields (baseDecodeTime : UInt64) : List UInt8 :=
  BigEndian.bytes 8 baseDecodeTime.toNat ++ List.replicate 8 0

def trunFields (dataOffset : Nat) (frameDuration frameSize : UInt32)
    (isKeyframe isFirstSample : Bool) : List UInt8 :=
  BigEndian.bytes 4 1 ++ (BigEndian.bytes 4 dataOffset ++
    ((if isFirstSample then BigEndian.bytes 4 (sampleFlags isKeyframe).toNat else []) ++
      (BigEndian.bytes 4 frameDuration.toNat ++ (BigEndian.bytes 4 frameSize.toNat ++
        if isFirstSample then [] else BigEndian.bytes 4 (sampleFlags isKeyframe).toNat))))

theorem putTrunBox_appends (frameDuration frameSize : UInt32) (isKeyframe isFirstSample : Bool) :
    Appends (putTrunBox frameDuration frameSize isKeyframe isFirstSample)
      (fullBox ['t', 'r', 'u', 'n'] 0 (trunFlags isFirstSample)
        (trunFields 0 frameDuration frameSize isKeyframe isFirstSample))
      fun position => position + 16 := by
  have flags : ∀ isFirstSample, trunFlags isFirstSample ≤ 0xFFFFFF := by decide
  have named : Named ['t', 'r', 'u', 'n'] := by decide +kernel
  refine .of_eq (putFullBox_appends named (Nat.zero_le _) (flags isFirstSample) (?_ : Appends _
    (trunFields 0 frameDuration frameSize isKeyframe isFirstSample) fun position => position + 4))
    rfl fun _ => rfl
  cases isFirstSample with
  | true =>
    exact .of_eq (.bind (appends_putU32 1) fun _ => .bind appends_getPosition fun position =>
      .bind (appends_putI32 0) fun _ => .bind (appends_putU32 (sampleFlags isKeyframe)) fun _ =>
        .bind (appends_putU32 frameDuration) fun _ => .bind (appends_putU32 frameSize) fun _ =>
          appends_pure position)
      rfl fun _ => rfl
  | false =>
    exact .of_eq (.bind (appends_putU32 1) fun _ => .bind appends_getPosition fun position =>
      .bind (appends_putI32 0) fun _ => .bind (appends_putU32 frameDuration) fun _ => .bind (appends_putU32 frameSize) fun _ =>
        .bind (appends_putU32 (sampleFlags isKeyframe)) fun _ => appends_pure position)
      rfl fun _ => rfl

@[simp] theorem length_box (type : List Char) (payload : List UInt8) :
    (box type payload).length = 4 + (Utf8.encode type).length + payload.length := by
  rw [box, List.length_append, List.length_append, BigEndian.length_bytes, Nat.add_assoc]

@[simp] theorem length_fullBox (type : List Char) (version flags : Nat) (payload : List UInt8) :
    (fullBox type version flags payload).length =
      4 + (Utf8.encode type).length + 4 + payload.length := by
  rw [fullBox, length_box, List.length_append, ← Nat.add_assoc]
  rfl

@[simp] theorem length_tfdtFields (baseDecodeTime : UInt64) :
    (tfdtFields baseDecodeTime).length = 16 := by
  rw [tfdtFields, List.length_append, BigEndian.length_bytes, List.length_replicate]

@[simp] theorem length_trunFields (dataOffset : Nat) (frameDuration frameSize : UInt32)
    (isKeyframe isFirstSample : Bool) :
    (trunFields dataOffset frameDuration frameSize isKeyframe isFirstSample).length = 20 := by
  cases isFirstSample <;> simp [trunFields]

end Layout

section Slots

variable {place : Nat} {bytes : Nat → List UInt8}

-- A number of four bytes at a place.
def Slot (place : Nat) (bytes : Nat → List UInt8) : Prop :=
  ∃ before after, before.length = place ∧ ∀ n, bytes n = before ++ (BigEndian.bytes 4 n ++ after)

theorem Slot.behind (slot : Slot place bytes) (front : List UInt8) :
    Slot (front.length + place) fun n => front ++ bytes n := by
  obtain ⟨before, after, length, same⟩ := slot
  refine ⟨front ++ before, after, by rw [List.length_append, length], fun n => ?_⟩
  simp only [same, List.append_assoc]

theorem Slot.inBox {type : List Char} (slot : Slot place bytes) (named : Named type) :
    Slot (8 + place) fun n => box type (bytes n) := by
  obtain ⟨before, after, length, same⟩ := slot
  refine ⟨BigEndian.bytes 4 (8 + (before.length + (4 + after.length))) ++
    (Utf8.encode type ++ before), after, ?_, fun n => ?_⟩
  · rw [List.length_append, List.length_append, BigEndian.length_bytes, named.2, length]
    omega
  · simp only [box, same, List.length_append, BigEndian.length_bytes, List.append_assoc]

theorem Slot.inFullBox {type : List Char} {version flags : Nat} (slot : Slot place bytes)
    (named : Named type) : Slot (12 + place) fun n => fullBox type version flags (bytes n) := by
  have whole := (slot.behind [UInt8.ofNat version, UInt8.ofNat (flags / 2 ^ 16),
    UInt8.ofNat (flags / 2 ^ 8), UInt8.ofNat flags]).inBox named
  rwa [List.length_cons, List.length_cons, List.length_cons, List.length_singleton,
    ← Nat.add_assoc] at whole

end Slots

section Fragments

variable (trackId : UInt32) (sequenceNumber : Nat) (baseDecodeTime : UInt64)
  (frameDuration : UInt32) (isKeyframe : Bool) (frame : List UInt8)

-- The description of a frame, with the place of its bytes behind it.
def moof (dataOffset : Nat) : List UInt8 :=
  box ['m', 'o', 'o', 'f'] (fullBox ['m', 'f', 'h', 'd'] 0 0 (BigEndian.bytes 4 sequenceNumber) ++
    box ['t', 'r', 'a', 'f'] (fullBox ['t', 'f', 'h', 'd'] 0 0x020000 (BigEndian.bytes 4 trackId.toNat) ++
      (fullBox ['t', 'f', 'd', 't'] 1 0 (tfdtFields baseDecodeTime) ++
        fullBox ['t', 'r', 'u', 'n'] 0 (trunFlags (sequenceNumber = 1))
          (trunFields dataOffset frameDuration (UInt32.ofNat frame.length) isKeyframe
            (sequenceNumber = 1)))))

theorem named : Named ['m', 'o', 'o', 'f'] ∧ Named ['m', 'f', 'h', 'd'] ∧
    Named ['t', 'r', 'a', 'f'] ∧ Named ['t', 'f', 'h', 'd'] ∧ Named ['t', 'f', 'd', 't'] ∧
    Named ['t', 'r', 'u', 'n'] ∧ Named ['m', 'd', 'a', 't'] := by
  decide +kernel

theorem putMfhdBox_appends : Appends (putMfhdBox sequenceNumber)
    (fullBox ['m', 'f', 'h', 'd'] 0 0 (BigEndian.bytes 4 sequenceNumber)) fun _ => () := by
  have content := appends_putU32 (UInt32.ofNat sequenceNumber)
  rw [Translator.bytes_ofNat] at content
  exact putFullBox_appends named.2.1 (by decide) (by decide) content

theorem putTfhdBox_appends : Appends (putTfhdBox trackId)
    (fullBox ['t', 'f', 'h', 'd'] 0 0x020000 (BigEndian.bytes 4 trackId.toNat)) fun _ => () :=
  putFullBox_appends named.2.2.2.1 (by decide) (by decide) (appends_putU32 trackId)

theorem putTfdtBox_appends : Appends (putTfdtBox 1 baseDecodeTime)
    (fullBox ['t', 'f', 'd', 't'] 1 0 (tfdtFields baseDecodeTime)) fun _ => () :=
  putFullBox_appends named.2.2.2.2.1 (by decide) (by decide) (appends_putU64 baseDecodeTime)

theorem putMdatBox_appends : Appends (putMdatBox frame) (box ['m', 'd', 'a', 't'] frame)
    fun _ => () :=
  putBox_appends named.2.2.2.2.2.2 (appends_putU8Array frame)

theorem putMoofBox_appends : Appends
    (putBox ['m', 'o', 'o', 'f'] do
      putMfhdBox sequenceNumber
      putBox ['t', 'r', 'a', 'f'] do
        putTfhdBox trackId
        putTfdtBox 1 baseDecodeTime
        putTrunBox frameDuration (UInt32.ofNat frame.length) isKeyframe (sequenceNumber = 1))
    (moof trackId sequenceNumber baseDecodeTime frameDuration isKeyframe frame 0)
    fun position => position + 92 := by
  obtain ⟨moof, mfhd, traf, tfhd, tfdt, -, -⟩ := named
  refine .of_eq (putBox_appends moof (.bind (putMfhdBox_appends sequenceNumber) fun _ =>
    putBox_appends traf (.bind (putTfhdBox_appends trackId) fun _ =>
      .bind (putTfdtBox_appends baseDecodeTime) fun _ => putTrunBox_appends _ _ _ _))) rfl ?_
  intro position
  simp only [length_fullBox, length_tfdtFields, BigEndian.length_bytes, mfhd.2, tfhd.2, tfdt.2]

theorem length_moof (dataOffset : Nat) :
    (moof trackId sequenceNumber baseDecodeTime frameDuration isKeyframe frame dataOffset).length =
      108 := by
  obtain ⟨moof_, mfhd, traf, tfhd, tfdt, trun, -⟩ := named
  simp only [moof, length_box, length_fullBox, List.length_append, length_tfdtFields,
    length_trunFields, BigEndian.length_bytes, moof_.2, mfhd.2, traf.2, tfhd.2, tfdt.2, trun.2]

theorem slot_moof : Slot 92
    (moof trackId sequenceNumber baseDecodeTime frameDuration isKeyframe frame) := by
  obtain ⟨moof_, mfhd, traf, tfhd, tfdt, trun, -⟩ := named
  have fields : Slot 4 fun dataOffset => trunFields dataOffset frameDuration
      (UInt32.ofNat frame.length) isKeyframe (sequenceNumber = 1) :=
    ⟨BigEndian.bytes 4 1, _, BigEndian.length_bytes 4 1, fun _ => rfl⟩
  have trunSlot : Slot 16 fun dataOffset => fullBox ['t', 'r', 'u', 'n'] 0
      (trunFlags (sequenceNumber = 1)) (trunFields dataOffset frameDuration
        (UInt32.ofNat frame.length) isKeyframe (sequenceNumber = 1)) := fields.inFullBox trun
  have trafSlot := ((trunSlot.behind (fullBox ['t', 'f', 'd', 't'] 1 0
    (tfdtFields baseDecodeTime))).behind (fullBox ['t', 'f', 'h', 'd'] 0 0x020000
      (BigEndian.bytes 4 trackId.toNat))).inBox traf
  have whole := (trafSlot.behind (fullBox ['m', 'f', 'h', 'd'] 0 0
    (BigEndian.bytes 4 sequenceNumber))).inBox moof_
  simp only [length_fullBox, length_tfdtFields, BigEndian.length_bytes, mfhd.2, tfhd.2,
    tfdt.2] at whole
  exact whole

/-- Where there is room the fragment is the two boxes, with the data offset of the first byte of
the frame. -/
theorem fragment_ok {capacity : Nat} (fits : 116 + frame.length ≤ capacity)
    (idr : ¬(isKeyframe ∧ h264NalType (frame.getD 4 0) ≠ 5)) :
    fragment capacity trackId sequenceNumber baseDecodeTime frameDuration isKeyframe frame =
      .ok (moof trackId sequenceNumber baseDecodeTime frameDuration isKeyframe frame 116 ++
        box ['m', 'd', 'a', 't'] frame) := by
  have size := length_moof trackId sequenceNumber baseDecodeTime frameDuration isKeyframe frame
  have mdat := named.2.2.2.2.2.2.2
  have start : Filled (.new capacity false) [] ((moof trackId sequenceNumber baseDecodeTime
      frameDuration isKeyframe frame 0).length + ((box ['m', 'd', 'a', 't'] frame).length +
        (capacity - (116 + frame.length)))) := by
    convert filled_new capacity using 1
    rw [size, length_box, mdat]
    omega
  obtain ⟨b1, first, filled1⟩ := putMoofBox_appends trackId sequenceNumber baseDecodeTime
    frameDuration isKeyframe frame _ _ _ start
  simp only [List.length_nil, Nat.zero_add] at first
  obtain ⟨before, after, place, slot⟩ := slot_moof trackId sequenceNumber baseDecodeTime
    frameDuration isKeyframe frame
  have position : b1.position = 108 := by rw [filled1.position, List.nil_append, size]
  rw [List.nil_append, slot, ← List.append_assoc] at filled1
  obtain ⟨b2, patched, filled2⟩ := filled1.patch (by rw [BigEndian.length_bytes, BigEndian.length_bytes] :
    (BigEndian.bytes 4 116).length = (BigEndian.bytes 4 0).length)
  obtain ⟨b3, last, filled3⟩ := putMdatBox_appends frame b2 _ _ filled2
  rw [List.append_assoc before, ← slot] at filled3
  have offset : putI32 (Int32.ofNat (b1.position - 0 + 8)) (some 92) b1 = .ok ((), b2) := by
    rw [position, ← place]
    exact put_ok patched
  have run : putVideoFrameSegment trackId sequenceNumber baseDecodeTime frameDuration isKeyframe
      frame (.new capacity false) = .ok ((), b3) := by
    rw [putVideoFrameSegment, if_neg idr, bind_ok (rfl : getPosition _ = .ok (0, _)), bind_ok first,
      bind_ok (rfl : getPosition b1 = .ok (b1.position, b1)), bind_ok offset, last]
  rw [fragment, StateT.run, run]
  exact congrArg Except.ok filled3.remaining

end Fragments

section Room

open BrowserBuffer (Advanced Put)

variable {α β : Type} {write : Writer α} {next : α → Writer β} {b b' : Buffer}
  {first second size : Nat}

theorem advanced_refl (own : Own b) : Advanced b b 0 := ⟨own, rfl, le_rfl⟩

theorem advanced_trans {b'' : Buffer} (one : Advanced b b' first) (two : Advanced b' b'' second) :
    Advanced b b'' (first + second) :=
  ⟨two.own, two.capacity.trans one.capacity,
    Nat.add_assoc .. ▸ (Nat.add_le_add_right one.position second).trans two.position⟩

-- Where it does not throw, the writer moves the position at least so far.
def Advances (write : Writer α) (size : Nat) : Prop :=
  ∀ b b' value, Own b → write b = .ok (value, b') → Advanced b b' size

theorem of_bind_ok {b'' : Buffer} {result : β} (called : (write >>= next) b = .ok (result, b'')) :
    ∃ value b', write b = .ok (value, b') ∧ next value b' = .ok (result, b'') := by
  cases written : write b with
  | error error =>
    change (write b >>= fun called => next called.1 called.2) = _ at called
    rw [written] at called
    exact nomatch called
  | ok done =>
    rw [bind_ok written] at called
    exact ⟨done.1, done.2, rfl, called⟩

theorem Advances.bind (one : Advances write first) (two : ∀ value, Advances (next value) second) :
    Advances (write >>= next) (first + second) := by
  intro b b'' result own called
  obtain ⟨value, b', written, rest⟩ := of_bind_ok called
  have half := one b b' value own written
  exact advanced_trans half (two value b' b'' result half.own rest)

theorem advances_pure (value : α) : Advances (pure value) 0 := by
  intro b b' result own called
  cases called
  exact advanced_refl own

theorem advances_throw (error : String) : Advances (throw error : Writer α) size :=
  fun _ _ _ _ called => nomatch called

theorem advances_getPosition : Advances getPosition 0 := by
  intro b b' result own called
  cases called
  exact advanced_refl own

theorem advances_put {call : Buffer → Except String Buffer}
    (calls : ∀ b b', Own b → call b = .ok b' → Advanced b b' size) : Advances (put call) size := by
  intro b b'' result own called
  cases done : call b with
  | error error =>
    simp [put, bind, StateT.bind, get, getThe, MonadStateOf.get, StateT.get, pure, Except.pure,
      Except.bind, liftM, monadLift, MonadLift.monadLift, StateT.lift, done] at called
  | ok b' =>
    rw [put_ok done] at called
    obtain ⟨-, rfl⟩ := Prod.mk.inj (Except.ok.inj called)
    exact calls b b' own done

theorem advances_call (item : Put) {call : Buffer → Except String Buffer}
    (same : ∀ b : Buffer, call b = b.put item) : Advances (put call) item.size := by
  refine advances_put fun b b' own called => ?_
  rw [same] at called
  exact (BrowserBuffer.put_advanced own called).1

theorem advances_putU8 (data : UInt8) : Advances (putU8 data) 1 :=
  advances_call (.u8 data) fun _ => rfl

theorem advances_putU32 (data : UInt32) : Advances (putU32 data none) 4 :=
  advances_call (.u32 data) fun _ => rfl

theorem advances_putI32 (data : Int32) : Advances (putI32 data none) 4 :=
  advances_call (.i32 data) fun _ => rfl

theorem advances_putU64 (data : UInt64) : Advances (putU64 data) 16 := by
  refine advances_put fun b b' own called => ?_
  have room := (BrowserBuffer.put_advanced own (show b.put (.u64 data) = .ok b' from called)).2
    (by simp)
  obtain ⟨done, again, wrote⟩ := BrowserBuffer.putU64_wrote own data room
  obtain rfl := Except.ok.inj (again.symm.trans called)
  exact ⟨wrote.own, wrote.capacity, wrote.position.ge⟩

theorem advances_putUtf8Raw {type : List Char} (named : Named type) :
    Advances (putUtf8Raw type) 4 := by
  have size : (Put.utf8Raw (Utf16.encode type)).size = 4 := by
    rw [Put.size, Put.encoding, Utf16.decode_encode, named.2]
  rw [← size]
  exact advances_call (.utf8Raw (Utf16.encode type)) fun _ => rfl

-- A field in a place of its own moves nothing.
theorem advances_patch {call : Buffer → Except String Buffer} {field : Buffer → List UInt8}
    {place : Nat} (same : ∀ b : Buffer, call b = b.putField (field b) (some place)) :
    Advances (put call) 0 := by
  refine advances_put fun b b' own called => ?_
  simp only [same, BrowserBuffer.ByteBuffer.putField, BrowserBuffer.ByteBuffer.useDataView] at called
  by_cases full : (some place).getD b.position + (field b).length > b.buffer.length
  · rw [if_pos full] at called
    cases called
  · rw [if_neg full] at called
    obtain rfl := Except.ok.inj called
    exact ⟨own.store _ _ _ _, BrowserBuffer.store_length _ _ _, le_rfl⟩

theorem putBox_advances {type : List Char} (named : Named type) (content : Advances write size) :
    Advances (putBox type write) (8 + size) := by
  have patch (data : UInt32) (place : Nat) : Advances (putU32 data (some place)) 0 :=
    advances_patch fun _ => rfl
  have whole : Advances (putBox type write) (0 + (4 + (4 + (size + (0 + (0 + 0)))))) := by
    refine .bind advances_getPosition fun place => .bind (advances_putU32 0) fun _ => ?_
    rw [if_neg (not_not.mpr named.1)]
    exact .bind (advances_putUtf8Raw named) fun _ => .bind content fun written =>
      .bind advances_getPosition fun _ => .bind (patch _ place) fun _ => advances_pure written
  convert whole using 1
  omega

theorem putFullBox_advances {type : List Char} {version flags : Nat} (named : Named type)
    (content : Advances write size) : Advances (putFullBox type version flags write) (12 + size) := by
  rw [putFullBox]
  by_cases byte : version > 0xFF
  · rw [if_pos byte]
    exact advances_throw _
  rw [if_neg byte]
  by_cases bytes : flags > 0xFFFFFF
  · rw [if_pos bytes]
    exact advances_throw _
  rw [if_neg bytes]
  have whole := putBox_advances named (.bind (advances_putU8 (UInt8.ofNat version)) fun _ =>
    .bind (advances_putU8 (UInt8.ofNat (flags / 2 ^ 16))) fun _ =>
      .bind (advances_putU8 (UInt8.ofNat (flags / 2 ^ 8))) fun _ =>
        .bind (advances_putU8 (UInt8.ofNat flags)) fun _ => content)
  convert whole using 1
  omega

theorem putTrunBox_advances (frameDuration frameSize : UInt32) (isKeyframe isFirstSample : Bool) :
    Advances (putTrunBox frameDuration frameSize isKeyframe isFirstSample) (12 + 20) := by
  obtain ⟨-, -, -, -, -, trun, -⟩ := named
  refine putFullBox_advances trun ?_
  cases isFirstSample with
  | true =>
    exact .bind (advances_putU32 1) fun _ => .bind advances_getPosition fun position =>
      .bind (advances_putI32 0) fun _ => .bind (advances_putU32 (sampleFlags isKeyframe)) fun _ =>
        .bind (advances_putU32 frameDuration) fun _ => .bind (advances_putU32 frameSize) fun _ =>
          advances_pure position
  | false =>
    exact .bind (advances_putU32 1) fun _ => .bind advances_getPosition fun position =>
      .bind (advances_putI32 0) fun _ => .bind (advances_putU32 frameDuration) fun _ =>
        .bind (advances_putU32 frameSize) fun _ =>
          .bind (advances_putU32 (sampleFlags isKeyframe)) fun _ => advances_pure position

-- The contents of the second box are written where the first one ends at the earliest.
theorem putMdatBox_room {frame : List UInt8} {b' : Buffer} (own : Own b)
    (called : putMdatBox frame b = .ok ((), b')) :
    b.position + 8 + frame.length ≤ b.buffer.length := by
  obtain ⟨-, -, -, -, -, -, mdat⟩ := named
  rw [putMdatBox, putBox] at called
  obtain ⟨place, b1, first, called⟩ := of_bind_ok called
  obtain ⟨_, b2, second, called⟩ := of_bind_ok called
  rw [if_neg (not_not.mpr mdat.1)] at called
  obtain ⟨_, b3, third, called⟩ := of_bind_ok called
  obtain ⟨_, _, fourth, -⟩ := of_bind_ok called
  have one := advances_getPosition b b1 place own first
  have two := advanced_trans one (advances_putU32 0 b1 b2 _ one.own second)
  have three := advanced_trans two (advances_putUtf8Raw mdat b2 b3 _ two.own third)
  have done : ∃ b4, b3.put (.u8Array frame) = .ok b4 := by
    cases stored : b3.putU8Array frame none with
    | error error =>
      simp [putU8Array, put, bind, StateT.bind, get, getThe, MonadStateOf.get, StateT.get, pure,
        Except.pure, Except.bind, liftM, monadLift, MonadLift.monadLift, StateT.lift,
        stored] at fourth
    | ok b4 => exact ⟨b4, stored⟩
  obtain ⟨b4, stored⟩ := done
  have room := (BrowserBuffer.put_advanced three.own stored).2 (by simp)
  have size : (Put.u8Array frame).size = frame.length := rfl
  have position := three.position
  have capacity := three.capacity
  omega

theorem fragment_room {capacity : Nat} {trackId : UInt32} {sequenceNumber : Nat}
    {baseDecodeTime : UInt64} {frameDuration : UInt32} {isKeyframe : Bool} {frame bytes : List UInt8}
    (written : fragment capacity trackId sequenceNumber baseDecodeTime frameDuration isKeyframe
      frame = .ok bytes) :
    116 + frame.length ≤ capacity ∧ ¬(isKeyframe ∧ h264NalType (frame.getD 4 0) ≠ 5) := by
  have run : ∃ b, putVideoFrameSegment trackId sequenceNumber baseDecodeTime frameDuration isKeyframe
      frame (.new capacity false) = .ok ((), b) := by
    rw [fragment, StateT.run] at written
    cases called : putVideoFrameSegment trackId sequenceNumber baseDecodeTime frameDuration
        isKeyframe frame (.new capacity false) with
    | error error =>
      rw [called] at written
      exact nomatch written
    | ok done => exact ⟨done.2, rfl⟩
  obtain ⟨b, run⟩ := run
  rw [putVideoFrameSegment] at run
  by_cases idr : isKeyframe ∧ h264NalType (frame.getD 4 0) ≠ 5
  · rw [if_pos idr] at run
    exact nomatch run
  refine ⟨?_, idr⟩
  rw [if_neg idr] at run
  obtain ⟨start, b1, first, run⟩ := of_bind_ok run
  obtain ⟨place, b2, second, run⟩ := of_bind_ok run
  obtain ⟨ended, b3, third, run⟩ := of_bind_ok run
  obtain ⟨_, b4, fourth, run⟩ := of_bind_ok run
  obtain ⟨moof, mfhd, traf, tfhd, tfdt, -, -⟩ := named
  have content : Advances (do
      putMfhdBox sequenceNumber
      putBox ['t', 'r', 'a', 'f'] do
        putTfhdBox trackId
        putTfdtBox 1 baseDecodeTime
        putTrunBox frameDuration (UInt32.ofNat frame.length) isKeyframe (sequenceNumber = 1))
      (12 + 4 + (8 + (12 + 4 + (12 + 16 + (12 + 20))))) :=
    .bind (putFullBox_advances mfhd (advances_putU32 _)) fun _ => putBox_advances traf
      (.bind (putFullBox_advances tfhd (advances_putU32 _)) fun _ =>
        .bind (putFullBox_advances tfdt (advances_putU64 _)) fun _ => putTrunBox_advances _ _ _ _)
  have patch (data : Int32) : Advances (putI32 data (some place)) 0 := advances_patch fun _ => rfl
  have one := advances_getPosition _ b1 start (BrowserBuffer.own_new capacity false) first
  have two := advanced_trans one (putBox_advances moof content b1 b2 place one.own second)
  have three := advanced_trans two (advances_getPosition b2 b3 ended two.own third)
  have four := advanced_trans three (patch _ b3 b4 () three.own fourth)
  have room := putMdatBox_room four.own run
  have position := four.position
  have size : b4.buffer.length = capacity := four.capacity
  omega

end Room

section Law

open Translator (CodecStreamTranslator VideoDecodeUnit Submitted submitDecodeUnit lengthPrefixed
  slicesOf H264StreamVideoTranslator)

-- What ISO BMFF prescribes: the lengths of the boxes for their versions and flags, and what the
-- fields say about the frame.
def Prescribed (sequenceNumber : Nat) (baseDecodeTime : UInt64) (frame bytes : List UInt8) : Prop :=
  ∃ mfhd tfhd tfdt trun moof,
    moof = box ['m', 'o', 'o', 'f'] (box ['m', 'f', 'h', 'd'] mfhd ++ box ['t', 'r', 'a', 'f']
      (box ['t', 'f', 'h', 'd'] tfhd ++ (box ['t', 'f', 'd', 't'] tfdt ++
        box ['t', 'r', 'u', 'n'] trun))) ∧
    bytes = moof ++ box ['m', 'd', 'a', 't'] frame ∧
    (box ['m', 'f', 'h', 'd'] mfhd).length = 16 ∧ (box ['t', 'f', 'h', 'd'] tfhd).length = 16 ∧
    (box ['t', 'f', 'd', 't'] tfdt).length = 20 ∧ (box ['t', 'r', 'u', 'n'] trun).length = 32 ∧
    tfdt = [1, 0, 0, 0] ++ BigEndian.bytes 8 baseDecodeTime.toNat ∧
    (trun.drop 8).take 4 = BigEndian.bytes 4 (moof.length + 8) ∧
    (trun.drop (if sequenceNumber = 1 then 20 else 16)).take 4 = BigEndian.bytes 4 frame.length

-- The fragment is written and is what is prescribed.
def WellFormed (capacity : Nat) (trackId : UInt32) (sequenceNumber : Nat) (baseDecodeTime : UInt64)
    (frameDuration : UInt32) (isKeyframe : Bool) (frame : List UInt8) : Prop :=
  ∃ bytes, fragment capacity trackId sequenceNumber baseDecodeTime frameDuration isKeyframe frame =
    .ok bytes ∧ Prescribed sequenceNumber baseDecodeTime frame bytes

theorem Prescribed.length {sequenceNumber : Nat} {baseDecodeTime : UInt64}
    {frame bytes : List UInt8} (prescribed : Prescribed sequenceNumber baseDecodeTime frame bytes) :
    bytes.length = 108 + frame.length := by
  obtain ⟨mfhd, tfhd, tfdt, trun, moof, rfl, rfl, one, two, three, four, -⟩ := prescribed
  obtain ⟨moof, -, traf, -, -, -, mdat⟩ := named
  rw [List.length_append, length_box, length_box _ frame, List.length_append, one, length_box,
    List.length_append, two, List.length_append, three, four, moof.2, traf.2, mdat.2]
  omega

-- The chunk of a unit that is processed.
theorem chunk_eq {translator next : H264StreamVideoTranslator} {decodeUnit : VideoDecodeUnit}
    {configure : Option Translator.VideoDecoderConfig} {chunk : List UInt8}
    {handed : List (List UInt8)}
    (submitted : submitDecodeUnit H264StreamVideoTranslator.methods translator decodeUnit =
      .ok (next, .done configure (some chunk), handed)) :
    chunk = lengthPrefixed
      ((slicesOf decodeUnit.data).filter H264StreamVideoTranslator.included) := by
  by_cases known : translator.decoderConfig.isSome
  · by_cases processed : H264StreamVideoTranslator.methods.startProcessChunk translator decodeUnit
    · rcases Translator.submitDecodeUnit_hands H264StreamVideoTranslator.lawful known processed with
        ⟨-, error, thrown⟩ | ⟨-, final, configured, done⟩
      · exact nomatch thrown.symm.trans submitted
      · obtain ⟨-, same⟩ := Prod.mk.inj (Except.ok.inj (done.symm.trans submitted))
        obtain ⟨same, -⟩ := Prod.mk.inj same
        obtain ⟨-, same⟩ := Submitted.done.inj same
        exact (Option.some.inj same).symm
    · have config : translator.decoderConfig.isNone = false := by
        rw [← Option.not_isSome, known]
        rfl
      rw [submitDecodeUnit, config, if_neg Bool.false_ne_true, if_pos processed] at submitted
      cases submitted
  · have config : translator.decoderConfig.isNone = true := by
      rw [Option.isNone_iff_eq_none, ← Option.not_isSome_iff_eq_none]
      exact known
    rw [submitDecodeUnit, config, if_pos rfl] at submitted
    cases submitted

theorem fragment_written_iff (capacity : Nat) (trackId : UInt32) (sequenceNumber : Nat)
    (baseDecodeTime : UInt64) (frameDuration : UInt32) (isKeyframe : Bool) (frame : List UInt8) :
    (∃ bytes, fragment capacity trackId sequenceNumber baseDecodeTime frameDuration isKeyframe
        frame = .ok bytes) ↔
      116 + frame.length ≤ capacity ∧ ¬(isKeyframe ∧ h264NalType (frame.getD 4 0) ≠ 5) :=
  ⟨fun ⟨_, written⟩ => fragment_room written, fun ⟨fits, idr⟩ => ⟨_, fragment_ok trackId
    sequenceNumber baseDecodeTime frameDuration isKeyframe frame fits idr⟩⟩

theorem not_wellFormed (capacity : Nat) (trackId : UInt32) (sequenceNumber : Nat)
    (baseDecodeTime : UInt64) (frameDuration : UInt32) (isKeyframe : Bool) (frame : List UInt8) :
    ¬ WellFormed capacity trackId sequenceNumber baseDecodeTime frameDuration isKeyframe frame := by
  rintro ⟨bytes, written, prescribed⟩
  obtain ⟨fits, idr⟩ := fragment_room written
  have whole := fragment_ok trackId sequenceNumber baseDecodeTime frameDuration isKeyframe frame
    fits idr
  obtain rfl := Except.ok.inj (whole.symm.trans written)
  have length := prescribed.length
  rw [List.length_append, length_moof, length_box, named.2.2.2.2.2.2.2] at length
  omega

/-- No fragment is what is prescribed: the position behind the decode time counts for eight bytes
more. The chunk of a decode unit fits its buffer, unless it is refused as a key frame, exactly if
its NAL units with four bytes for each are at most 284 bytes longer than the data. -/
theorem fragment_never (trackId : UInt32) (sequenceNumber : Nat) (baseDecodeTime : UInt64)
    (frameDuration : UInt32) (isKeyframe : Bool) :
    (∀ capacity frame, ¬ WellFormed capacity trackId sequenceNumber baseDecodeTime frameDuration
      isKeyframe frame) ∧
    ∀ translator decodeUnit next configure chunk handed,
      submitDecodeUnit H264StreamVideoTranslator.methods translator decodeUnit =
        .ok (next, .done configure (some chunk), handed) →
      ¬(isKeyframe ∧ h264NalType (chunk.getD 4 0) ≠ 5) →
      ((∃ bytes, fragment (400 + decodeUnit.data.length) trackId sequenceNumber baseDecodeTime
          frameDuration isKeyframe chunk = .ok bytes) ↔
        (lengthPrefixed ((slicesOf decodeUnit.data).filter
          H264StreamVideoTranslator.included)).length ≤ 284 + decodeUnit.data.length) := by
  refine ⟨fun capacity frame => not_wellFormed _ _ _ _ _ _ _, ?_⟩
  intro translator decodeUnit next configure chunk handed submitted idr
  rw [fragment_written_iff, ← chunk_eq submitted]
  constructor
  · rintro ⟨fits, -⟩
    omega
  · exact fun fits => ⟨by omega, idr⟩

theorem fragment_never_slice :
    ¬ WellFormed 404 1 1 0 20000 true [0, 0, 0, 1, 0x65] ∧
      ∃ next configure chunk handed, submitDecodeUnit H264StreamVideoTranslator.methods
          ⟨some ⟨"avc1.42E01E", none⟩, [], ⟨false, none, none⟩⟩ ⟨true, [0, 0, 1, 0x65]⟩ =
            .ok (next, .done configure (some chunk), handed) ∧
        ∃ bytes, fragment 404 1 1 0 20000 true chunk = .ok bytes := by
  refine ⟨(fragment_never 1 1 0 20000 true).1 404 _, ?_⟩
  rcases Translator.submitDecodeUnit_hands H264StreamVideoTranslator.lawful
      (rfl : (CodecStreamTranslator.mk (some ⟨"avc1.42E01E", none⟩) []
        (Translator.H264Fields.mk false none none)).decoderConfig.isSome = true)
      (rfl : H264StreamVideoTranslator.methods.startProcessChunk _ ⟨true, [0, 0, 1, 0x65]⟩ = true) with
    ⟨⟨slice, member, cut⟩, -⟩ | ⟨-, next, configure, done⟩
  · have whole : ∀ slice ∈ slicesOf [0, 0, 1, 0x65], ¬ H264StreamVideoTranslator.Cut slice := by
      decide +kernel
    exact absurd cut (whole slice member)
  · refine ⟨next, configure, _, _, done, ?_⟩
    exact ((fragment_never 1 1 0 20000 true).2 _ _ _ _ _ _ done (by decide +kernel)).mpr
      (by decide +kernel)

-- Behind the decode time of the fragment there are eight zeros.
theorem fragment_not_prescribed :
    ¬ WellFormed 404 1 1 0 20000 true [0, 0, 0, 1, 0x65] := by
  rintro ⟨bytes, written, prescribed⟩
  have length : (fragment 404 1 1 0 20000 true [0, 0, 0, 1, 0x65]).map List.length = .ok 121 := by
    decide +kernel
  rw [written] at length
  have short := prescribed.length
  rw [Except.ok.inj length] at short
  exact absurd short (by decide)

end Law

end Mp4Fragment

end BetterParsec
