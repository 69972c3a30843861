import BetterParsec.Fec.Encoder
import BetterParsec.Library.LittleEndian

set_option autoImplicit false
set_option linter.all false

/-!
# Frame chunks

The chunk headers of `fec_wire.rs` and the cutting of an encoded frame into
fragments that one source symbol can carry.
-/

namespace BetterParsec

inductive FecWireError where
  | empty
  | unknownKind (kind : UInt8)
  | truncated
  | oversize
  | invalidEpoch
  | invalidLength
  | crcMismatch
  | invalidChunkCount
  | invalidChunkIndex
  | invalidFrameType
  | invalidEncodedFrameLength
  deriving DecidableEq

def encodedFrameMax : Nat := 4 * 1024 * 1024

def v2ChunkCountMax : UInt16 := 4096

def chunkHeaderLen : Nat := 13

def chunkFragmentMax : Nat := 1182

def chunkV2HeaderLen : Nat := 21

def chunkV2FragmentMax : Nat := 1164

def leU16 (value : UInt16) : List UInt8 := LittleEndian.bytes 2 value.toNat

def leU32 (value : UInt32) : List UInt8 := LittleEndian.bytes 4 value.toNat

def u16At (buf : List UInt8) (first : Nat) : UInt16 :=
  UInt16.ofNat (LittleEndian.valueAt buf first 2)

def u32At (buf : List UInt8) (first : Nat) : UInt32 :=
  UInt32.ofNat (LittleEndian.valueAt buf first 4)

@[simp] theorem length_leU16 (value : UInt16) : (leU16 value).length = 2 :=
  LittleEndian.length_bytes 2 _

@[simp] theorem length_leU32 (value : UInt32) : (leU32 value).length = 4 :=
  LittleEndian.length_bytes 4 _

section Fields

variable (before after rest : List UInt8) (first : Nat)

@[simp] theorem u16At_leU16 (value : UInt16) : u16At (leU16 value ++ after) 0 = value := by
  rw [u16At, leU16, LittleEndian.valueAt_bytes 2 value.toNat after value.toNat_lt,
    UInt16.ofNat_toNat]

@[simp] theorem u32At_leU32 (value : UInt32) : u32At (leU32 value ++ after) 0 = value := by
  rw [u32At, leU32, LittleEndian.valueAt_bytes 4 value.toNat after value.toNat_lt,
    UInt32.ofNat_toNat]

@[simp] theorem u16At_append (place : before.length ≤ first) :
    u16At (before ++ after) first = u16At after (first - before.length) := by
  rw [u16At, u16At, LittleEndian.valueAt_append before after first 2 place]

@[simp] theorem u32At_append (place : before.length ≤ first) :
    u32At (before ++ after) first = u32At after (first - before.length) := by
  rw [u32At, u32At, LittleEndian.valueAt_append before after first 4 place]

theorem leU16_u16At_append (buf : List UInt8) (inside : first + 2 ≤ buf.length) :
    leU16 (u16At buf first) ++ buf.drop (first + 2) = buf.drop first := by
  rw [leU16, u16At, UInt16.toNat_ofNat_of_lt' (LittleEndian.valueAt_lt buf first 2 inside)]
  exact LittleEndian.bytes_valueAt_append buf first 2 inside

theorem leU32_u32At_append (buf : List UInt8) (inside : first + 4 ≤ buf.length) :
    leU32 (u32At buf first) ++ buf.drop (first + 4) = buf.drop first := by
  rw [leU32, u32At, UInt32.toNat_ofNat_of_lt' (LittleEndian.valueAt_lt buf first 4 inside)]
  exact LittleEndian.bytes_valueAt_append buf first 4 inside

@[simp] theorem u16At_cons (b : UInt8) : u16At (b :: rest) (first + 1) = u16At rest first := rfl

@[simp] theorem u32At_cons (b : UInt8) : u32At (b :: rest) (first + 1) = u32At rest first := rfl

end Fields

def crcBit (crc : UInt32) : UInt32 :=
  (crc >>> 1) ^^^ (0xedb88320 &&& (0 - (crc &&& 1)))

def ieeeCrc32 (bytes : List UInt8) : UInt32 :=
  ~~~ (bytes.foldl (fun crc byte => crcBit^[8] (crc ^^^ byte.toUInt32)) (~~~ 0))

structure ChunkHeader where
  frameId : UInt32
  chunkIndex : UInt16
  chunkCount : UInt16
  frameTypeKey : Bool
  timestampUs : UInt32
  deriving DecidableEq

def parseChunkHeader (buf : List UInt8) : Option (ChunkHeader × List UInt8) :=
  if buf.length < chunkHeaderLen then none
  else some
    ({ frameId := u32At buf 0
       chunkIndex := u16At buf 4
       chunkCount := u16At buf 6
       frameTypeKey := buf.getD 8 0 != 0
       timestampUs := u32At buf 9 },
     buf.drop chunkHeaderLen)

def encodeChunk (frameId : UInt32) (chunkIndex chunkCount : UInt16) (frameTypeKey : Bool)
    (timestampUs : UInt32) (fragment : List UInt8) : List UInt8 :=
  leU32 frameId ++ leU16 chunkIndex ++ leU16 chunkCount ++ [if frameTypeKey then 1 else 0] ++
    leU32 timestampUs ++ fragment

structure ChunkV2Header where
  frameId : UInt32
  chunkIndex : UInt16
  chunkCount : UInt16
  frameTypeKey : Bool
  timestampUs : UInt32
  encodedFrameLen : UInt32
  encodedFrameCrc32 : UInt32
  deriving DecidableEq

def validateChunkV2 (header : ChunkV2Header) (fragment : List UInt8) : Except FecWireError Unit :=
  if header.chunkCount = 0 ∨ header.chunkCount > v2ChunkCountMax then .error .invalidChunkCount
  else if header.chunkIndex ≥ header.chunkCount then .error .invalidChunkIndex
  else if header.encodedFrameLen.toNat > encodedFrameMax then .error .invalidEncodedFrameLength
  else if fragment.length > chunkV2FragmentMax then .error .oversize
  else .ok ()

def chunkV2Bytes (header : ChunkV2Header) (fragment : List UInt8) : List UInt8 :=
  leU32 header.frameId ++ leU16 header.chunkIndex ++ leU16 header.chunkCount ++
    [if header.frameTypeKey then 1 else 0] ++ leU32 header.timestampUs ++
    leU32 header.encodedFrameLen ++ leU32 header.encodedFrameCrc32 ++ fragment

def encodeChunkV2 (header : ChunkV2Header) (fragment : List UInt8) :
    Except FecWireError (List UInt8) := do
  validateChunkV2 header fragment
  return chunkV2Bytes header fragment

def parseChunkV2 (buf : List UInt8) : Except FecWireError (ChunkV2Header × List UInt8) :=
  if buf.length < chunkV2HeaderLen then .error .truncated
  else
    let frameType := buf.getD 8 0
    let header : ChunkV2Header :=
      { frameId := u32At buf 0
        chunkIndex := u16At buf 4
        chunkCount := u16At buf 6
        frameTypeKey := frameType == 1
        timestampUs := u32At buf 9
        encodedFrameLen := u32At buf 13
        encodedFrameCrc32 := u32At buf 17 }
    if frameType > 1 then .error .invalidFrameType
    else do
      validateChunkV2 header (buf.drop chunkV2HeaderLen)
      return (header, buf.drop chunkV2HeaderLen)

def validateEncodedFrameV2 (header : ChunkV2Header) (encodedFrame : List UInt8) :
    Except FecWireError Unit :=
  if encodedFrame.length ≠ header.encodedFrameLen.toNat then .error .invalidLength
  else if ieeeCrc32 encodedFrame ≠ header.encodedFrameCrc32 then .error .crcMismatch
  else .ok ()

def divCeil (n d : Nat) : Nat := (n + d - 1) / d

-- The version 1 cut. The casts of index and count to 16 bits wrap in a release build.
def chunkFrame (frameId : UInt32) (frameTypeKey : Bool) (timestampUs : UInt32)
    (data : List UInt8) : List (List UInt8) :=
  if data.isEmpty then [encodeChunk frameId 0 1 frameTypeKey timestampUs []]
  else
    let chunkCount := divCeil data.length chunkFragmentMax
    (List.range chunkCount).map (fun index =>
      encodeChunk frameId (UInt16.ofNat index) (UInt16.ofNat chunkCount) frameTypeKey timestampUs
        ((data.drop (chunkFragmentMax * index)).take chunkFragmentMax))

def chunkCountOf (length : Nat) : Nat := divCeil (max length 1) chunkV2FragmentMax

-- `slice::chunks`: piece `index` of at most `size` bytes.
def fragmentAt (data : List UInt8) (index : Nat) : List UInt8 :=
  (data.drop (chunkV2FragmentMax * index)).take chunkV2FragmentMax

def chunkHeaderV2 (frameId : UInt32) (frameTypeKey : Bool) (timestampUs : UInt32)
    (data : List UInt8) (index : Nat) : ChunkV2Header :=
  { frameId := frameId
    chunkIndex := UInt16.ofNat index
    chunkCount := UInt16.ofNat (chunkCountOf data.length)
    frameTypeKey := frameTypeKey
    timestampUs := timestampUs
    encodedFrameLen := UInt32.ofNat data.length
    encodedFrameCrc32 := ieeeCrc32 data }

def chunkFrameV2 (frameId : UInt32) (frameTypeKey : Bool) (timestampUs : UInt32)
    (data : List UInt8) : Except FecWireError (List (List UInt8)) :=
  if data.length > encodedFrameMax then .error .invalidEncodedFrameLength
  else if chunkCountOf data.length > v2ChunkCountMax.toNat then .error .invalidChunkCount
  else
    -- The source unwraps each encoding; none of them fails.
    (List.range (chunkCountOf data.length)).mapM (fun index =>
      encodeChunkV2 (chunkHeaderV2 frameId frameTypeKey timestampUs data index)
        (fragmentAt data index))

theorem length_chunkV2Bytes (header : ChunkV2Header) (fragment : List UInt8) :
    (chunkV2Bytes header fragment).length = chunkV2HeaderLen + fragment.length := by
  simp only [chunkV2Bytes, chunkV2HeaderLen, List.length_append, length_leU32, length_leU16,
    List.length_singleton]

theorem parseChunkV2_chunkV2Bytes (header : ChunkV2Header) (fragment : List UInt8)
    (valid : validateChunkV2 header fragment = .ok ()) :
    parseChunkV2 (chunkV2Bytes header fragment) = .ok (header, fragment) := by
  have long : ¬ (chunkV2Bytes header fragment).length < chunkV2HeaderLen := by
    rw [length_chunkV2Bytes]
    omega
  have frameType : (chunkV2Bytes header fragment).getD 8 0 =
      if header.frameTypeKey then 1 else 0 := by
    have place : (leU32 header.frameId ++ leU16 header.chunkIndex ++
      leU16 header.chunkCount).length = 8 := by simp
    rw [chunkV2Bytes, List.append_assoc, List.append_assoc, List.append_assoc, List.append_assoc,
      List.getD_append_right _ _ _ _ (by omega), place]
    simp
  -- Every other field is read behind the ones written before it.
  have fields : u32At (chunkV2Bytes header fragment) 0 = header.frameId ∧
      u16At (chunkV2Bytes header fragment) 4 = header.chunkIndex ∧
      u16At (chunkV2Bytes header fragment) 6 = header.chunkCount ∧
      u32At (chunkV2Bytes header fragment) 9 = header.timestampUs ∧
      u32At (chunkV2Bytes header fragment) 13 = header.encodedFrameLen ∧
      u32At (chunkV2Bytes header fragment) 17 = header.encodedFrameCrc32 := by
    simp [chunkV2Bytes]
  obtain ⟨frameId, chunkIndex, chunkCount, timestampUs, encodedFrameLen, encodedFrameCrc32⟩ := fields
  have rest : (chunkV2Bytes header fragment).drop chunkV2HeaderLen = fragment := by
    rw [chunkV2Bytes]
    apply List.drop_left'
    simp [chunkV2HeaderLen]
  have kind : ((if header.frameTypeKey then 1 else 0 : UInt8) == 1) = header.frameTypeKey := by
    cases header.frameTypeKey <;> rfl
  have known : ¬ (if header.frameTypeKey then 1 else 0 : UInt8) > 1 := by
    cases header.frameTypeKey <;> decide
  simp only [parseChunkV2, if_neg long, frameId, chunkIndex, chunkCount, frameType, timestampUs,
    encodedFrameLen, encodedFrameCrc32, rest, kind, if_neg known, valid]
  rfl

-- The header that `parseChunkV2` reads, before it is checked.
def readChunkV2Header (buf : List UInt8) : ChunkV2Header :=
  { frameId := u32At buf 0
    chunkIndex := u16At buf 4
    chunkCount := u16At buf 6
    frameTypeKey := buf.getD 8 0 == 1
    timestampUs := u32At buf 9
    encodedFrameLen := u32At buf 13
    encodedFrameCrc32 := u32At buf 17 }

theorem chunkV2Bytes_read (buf : List UInt8) (long : chunkV2HeaderLen ≤ buf.length)
    (known : ¬ buf.getD 8 0 > 1) :
    chunkV2Bytes (readChunkV2Header buf) (buf.drop chunkV2HeaderLen) = buf := by
  simp only [chunkV2HeaderLen] at long
  -- Only 0 and 1 are frame types, so the byte is the one that the flag is written as.
  have kind : (if (readChunkV2Header buf).frameTypeKey then 1 else 0 : UInt8) = buf.getD 8 0 := by
    change (if buf.getD 8 0 == 1 then 1 else 0 : UInt8) = _
    generalize buf.getD 8 0 = frameType at known
    split_ifs with key
    · exact (eq_of_beq key).symm
    · rw [beq_iff_eq] at key
      grind
  have byte : [buf.getD 8 0] ++ buf.drop 9 = buf.drop 8 := by
    rw [List.drop_eq_getElem_cons (show 8 < buf.length by omega), List.getD_eq_getElem _ _ (by omega)]
    rfl
  rw [chunkV2Bytes, kind]
  simp only [readChunkV2Header, chunkV2HeaderLen, List.append_assoc]
  rw [leU32_u32At_append 17 buf (by omega), leU32_u32At_append 13 buf (by omega),
    leU32_u32At_append 9 buf (by omega), byte, leU16_u16At_append 6 buf (by omega),
    leU16_u16At_append 4 buf (by omega), leU32_u32At_append 0 buf (by omega), List.drop_zero]

/-- The version 2 chunks that are accepted are exactly those that are produced. -/
theorem parseChunkV2_iff (buf fragment : List UInt8) (header : ChunkV2Header) :
    parseChunkV2 buf = .ok (header, fragment) ↔ encodeChunkV2 header fragment = .ok buf := by
  constructor
  · intro parsed
    rw [parseChunkV2] at parsed
    dsimp only at parsed
    split_ifs at parsed with short unknown
    change (do
      validateChunkV2 (readChunkV2Header buf) (buf.drop chunkV2HeaderLen)
      return (readChunkV2Header buf, buf.drop chunkV2HeaderLen)) = _ at parsed
    cases valid : validateChunkV2 (readChunkV2Header buf) (buf.drop chunkV2HeaderLen) with
    | error fault =>
      rw [valid] at parsed
      cases parsed
    | ok =>
      rw [valid] at parsed
      cases parsed
      rw [encodeChunkV2, valid, chunkV2Bytes_read buf (by omega) unknown]
      rfl
  · intro encoded
    rw [encodeChunkV2] at encoded
    cases valid : validateChunkV2 header fragment with
    | error fault =>
      rw [valid] at encoded
      cases encoded
    | ok =>
      rw [valid] at encoded
      cases encoded
      exact parseChunkV2_chunkV2Bytes header fragment valid

theorem mapM_ok {I E V : Type} {f : I → Except E V} {g : I → V} (items : List I)
    (each : ∀ item ∈ items, f item = .ok (g item)) : items.mapM f = .ok (items.map g) := by
  induction items with
  | nil => rfl
  | cons item rest ih =>
    have later := ih (fun other member => each other (List.mem_cons_of_mem _ member))
    rw [List.mapM_cons, later, each item List.mem_cons_self]
    rfl

section Cutting

variable (frameId : UInt32) (frameTypeKey : Bool) (timestampUs : UInt32) {data : List UInt8}

theorem chunkCountOf_pos (length : Nat) : 0 < chunkCountOf length := by
  simp only [chunkCountOf, divCeil, chunkV2FragmentMax]
  omega

theorem chunkCountOf_le {length : Nat} (fits : length ≤ encodedFrameMax) :
    chunkCountOf length ≤ v2ChunkCountMax.toNat := by
  have limit : v2ChunkCountMax.toNat = 4096 := rfl
  simp only [encodedFrameMax] at fits
  simp only [limit, chunkCountOf, divCeil, chunkV2FragmentMax]
  omega

theorem fragmentAt_short (data : List UInt8) (index : Nat) :
    (fragmentAt data index).length ≤ chunkV2FragmentMax := by
  rw [fragmentAt, List.length_take]
  omega

theorem length_fragmentAt (data : List UInt8) {index : Nat}
    (inside : index < chunkCountOf data.length) :
    (fragmentAt data index).length =
      if index + 1 = chunkCountOf data.length then
        data.length - chunkV2FragmentMax * (chunkCountOf data.length - 1)
      else chunkV2FragmentMax := by
  rw [fragmentAt, List.length_take, List.length_drop]
  by_cases last : index + 1 = chunkCountOf data.length
  · rw [if_pos last]
    simp only [chunkCountOf, divCeil, chunkV2FragmentMax] at inside last ⊢
    omega
  · rw [if_neg last]
    simp only [chunkCountOf, divCeil, chunkV2FragmentMax] at inside last ⊢
    omega

theorem chunkHeaderV2_valid (fits : data.length ≤ encodedFrameMax) {index : Nat}
    (inside : index < chunkCountOf data.length) :
    validateChunkV2 (chunkHeaderV2 frameId frameTypeKey timestampUs data index)
      (fragmentAt data index) = .ok () := by
  have most := chunkCountOf_le fits
  have some := chunkCountOf_pos data.length
  have limit : v2ChunkCountMax.toNat = 4096 := rfl
  have short : data.length < 2 ^ 32 := by
    simp only [encodedFrameMax] at fits
    omega
  have counted : (UInt16.ofNat (chunkCountOf data.length)).toNat = chunkCountOf data.length :=
    UInt16.toNat_ofNat_of_lt' (by rw [UInt16.size]; omega)
  have numbered : (UInt16.ofNat index).toNat = index :=
    UInt16.toNat_ofNat_of_lt' (by rw [UInt16.size]; omega)
  have count : ¬ (UInt16.ofNat (chunkCountOf data.length) = 0 ∨
      UInt16.ofNat (chunkCountOf data.length) > v2ChunkCountMax) := by
    rw [← UInt16.toNat_inj, gt_iff_lt, UInt16.lt_iff_toNat_lt, counted]
    simp only [UInt16.toNat_zero]
    omega
  have place : ¬ UInt16.ofNat index ≥ UInt16.ofNat (chunkCountOf data.length) := by
    rw [ge_iff_le, UInt16.le_iff_toNat_le, counted, numbered]
    omega
  have length : ¬ (UInt32.ofNat data.length).toNat > encodedFrameMax := by
    rw [UInt32.toNat_ofNat_of_lt' short]
    omega
  have fragment : ¬ (fragmentAt data index).length > chunkV2FragmentMax := by
    have := fragmentAt_short data index
    omega
  simp only [validateChunkV2, chunkHeaderV2, if_neg count, if_neg place, if_neg length,
    if_neg fragment]

/-- Cutting a frame within the size limit never fails. -/
theorem chunkFrameV2_eq (fits : data.length ≤ encodedFrameMax) :
    chunkFrameV2 frameId frameTypeKey timestampUs data =
      .ok ((List.range (chunkCountOf data.length)).map (fun index =>
        chunkV2Bytes (chunkHeaderV2 frameId frameTypeKey timestampUs data index)
          (fragmentAt data index))) := by
  have most := chunkCountOf_le fits
  rw [chunkFrameV2, if_neg (by omega), if_neg (by omega)]
  apply mapM_ok
  intro index member
  have valid := chunkHeaderV2_valid frameId frameTypeKey timestampUs fits (List.mem_range.mp member)
  rw [encodeChunkV2, valid]
  rfl

theorem chunkFrame_ne_nil : chunkFrame frameId frameTypeKey timestampUs data ≠ [] := by
  rw [chunkFrame]
  split_ifs with empty
  · simp
  · have some_byte : 0 < data.length := by simpa [List.length_pos_iff] using empty
    simp only [divCeil, chunkFragmentMax, ne_eq, List.map_eq_nil_iff, List.range_eq_nil]
    omega

/-- The fragments put together are the frame. -/
theorem flatten_fragments (data : List UInt8) :
    ((List.range (chunkCountOf data.length)).map (fragmentAt data)).flatten = data := by
  have take (count : Nat) : ((List.range count).map (fragmentAt data)).flatten =
      data.take (chunkV2FragmentMax * count) := by
    induction count with
    | zero => simp
    | succ count ih =>
      rw [List.range_succ, List.map_append, List.flatten_append, ih, Nat.mul_succ, List.take_add]
      simp [fragmentAt]
  rw [take]
  apply List.take_of_length_le
  simp only [chunkCountOf, divCeil, chunkV2FragmentMax]
  omega

end Cutting

end BetterParsec
