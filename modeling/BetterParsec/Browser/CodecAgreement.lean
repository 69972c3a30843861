import BetterParsec.Browser.FecWire

set_option autoImplicit false
set_option linter.all false

/-!
# The two wire codecs agree

What the browser accepts of a message and what it makes of it, and the chunks
it cuts, are those of the native codec; only a version 2 source has to hold a
chunk that the receiver would take.
-/

namespace BetterParsec

namespace Web

section Checksum

open JsNumber

theorem bits_crcRound (crc : Int) (native : UInt32) (same : bits crc = native.toBitVec) :
    bits (crcRound crc) = (crcBit native).toBitVec := by
  have masked : bits (if bitAnd crc 1 ≠ 0 then 0xEDB88320 else 0) =
      0xEDB88320 &&& (0 - (native.toBitVec &&& 1)) := by
    simp only [ne_eq, bitAnd_one_eq_zero_iff, same]
    rcases and_one_cases native.toBitVec with even | odd
    · rw [even]
      decide
    · rw [odd]
      decide
  rw [crcRound, bits_bitXor, bits_shiftRightUnsigned, masked, same]
  rfl

theorem bits_crcRounds (rounds : Nat) (crc : Int) (native : UInt32)
    (same : bits crc = native.toBitVec) :
    bits (crcRound^[rounds] crc) = (crcBit^[rounds] native).toBitVec := by
  induction rounds generalizing crc native with
  | zero => exact same
  | succ rounds ih =>
    rw [Function.iterate_succ_apply, Function.iterate_succ_apply]
    exact ih _ _ (bits_crcRound crc native same)

theorem bits_byte (byte : UInt8) : bits (byte.toNat : Int) = byte.toUInt32.toBitVec := by
  rw [bits_natCast]
  apply BitVec.eq_of_toNat_eq
  have small := byte.toNat_lt
  have wide : byte.toUInt32.toBitVec.toNat = byte.toNat := UInt8.toNat_toUInt32 byte
  rw [wide, BitVec.toNat_ofNat, Nat.mod_eq_of_lt (by omega)]

theorem bits_crc (bytes : List UInt8) (crc : Int) (native : UInt32)
    (same : bits crc = native.toBitVec) :
    bits (bytes.foldl (fun crc (byte : UInt8) => crcRound^[8] (bitXor crc byte.toNat)) crc) =
      (bytes.foldl (fun crc byte => crcBit^[8] (crc ^^^ byte.toUInt32)) native).toBitVec := by
  induction bytes generalizing crc native with
  | nil => exact same
  | cons byte rest ih =>
    rw [List.foldl_cons, List.foldl_cons]
    apply ih
    apply bits_crcRounds
    rw [bits_bitXor, same, bits_byte]
    rfl

/-- The signed arithmetic of the browser gives the checksum of the native codec. -/
theorem crc32_eq (bytes : List UInt8) : crc32 bytes = ((ieeeCrc32 bytes).toNat : Int) := by
  have folded := bits_crc bytes 0xFFFFFFFF (~~~ 0) (by decide)
  rw [crc32, shiftRightUnsigned_zero, bits_bitXor, folded, show bits 0xFFFFFFFF = ~~~ 0 by decide]
  congr 1
  rw [ieeeCrc32]
  simp only [UInt32.toNat, UInt32.toBitVec_not]
  rw [← BitVec.allOnes_xor, BitVec.xor_comm]
  rfl

end Checksum

section Chunks

-- The payload holds a chunk that the receiver would take.
def HoldsChunk (payload : List UInt8) : Prop :=
  ∃ chunk, parseChunk true payload = some chunk ∧ chunk.wellFormed true

theorem ite_error_eq_ok {E : Type} {condition : Prop} [Decidable condition] {fault : E}
    {rest : Except E Unit} :
    (if condition then .error fault else rest) = .ok () ↔ ¬condition ∧ rest = .ok () := by
  by_cases met : condition <;> simp [met]

theorem validateChunkV2_ok_iff (header : ChunkV2Header) (fragment : List UInt8) :
    validateChunkV2 header fragment = .ok () ↔
      (0 < header.chunkCount.toNat ∧ header.chunkCount.toNat ≤ 4096) ∧
      header.chunkIndex.toNat < header.chunkCount.toNat ∧
      header.encodedFrameLen.toNat ≤ 4 * 1024 * 1024 ∧ fragment.length ≤ 1164 := by
  have most : v2ChunkCountMax.toNat = 4096 := rfl
  have count : (header.chunkCount = 0 ∨ header.chunkCount > v2ChunkCountMax) ↔
      ¬(0 < header.chunkCount.toNat ∧ header.chunkCount.toNat ≤ 4096) := by
    rw [gt_iff_lt, UInt16.lt_iff_toNat_lt, most, ← UInt16.toNat_inj, UInt16.toNat_zero]
    omega
  have index : header.chunkIndex ≥ header.chunkCount ↔
      ¬header.chunkIndex.toNat < header.chunkCount.toNat := by
    rw [ge_iff_le, UInt16.le_iff_toNat_le]
    omega
  rw [validateChunkV2, encodedFrameMax, BetterParsec.chunkV2FragmentMax]
  simp only [count, index, ite_error_eq_ok, not_not, and_true]
  simp only [gt_iff_lt, Nat.not_lt]

theorem parseChunkV2_ok_iff (payload : List UInt8) (header : ChunkV2Header)
    (fragment : List UInt8) :
    parseChunkV2 payload = .ok (header, fragment) ↔
      21 ≤ payload.length ∧ (payload.getD 8 0).toNat ≤ 1 ∧
      validateChunkV2 (readChunkV2Header payload) (payload.drop 21) = .ok () ∧
      header = readChunkV2Header payload ∧ fragment = payload.drop 21 := by
  have kind : payload.getD 8 0 > 1 ↔ ¬(payload.getD 8 0).toNat ≤ 1 := by
    rw [gt_iff_lt, UInt8.lt_iff_toNat_lt, show (1 : UInt8).toNat = 1 from rfl]
    omega
  rw [parseChunkV2, chunkV2HeaderLen]
  by_cases short : payload.length < 21
  · rw [if_pos short]
    simp
    omega
  rw [if_neg short]
  dsimp only
  by_cases known : (payload.getD 8 0).toNat ≤ 1
  · rw [if_neg (by rw [kind]; omega)]
    change (do
      validateChunkV2 (readChunkV2Header payload) (payload.drop 21)
      return (readChunkV2Header payload, payload.drop 21)) = _ ↔ _
    cases valid : validateChunkV2 (readChunkV2Header payload) (payload.drop 21) with
    | error fault => simp [bind, Except.bind]
    | ok =>
      simp only [bind, Except.bind, pure, Except.pure, Except.ok.injEq, Prod.mk.injEq]
      constructor
      · rintro ⟨rfl, rfl⟩
        exact ⟨by omega, known, trivial, rfl, rfl⟩
      · rintro ⟨-, -, -, rfl, rfl⟩
        exact ⟨rfl, rfl⟩
  · rw [if_pos (kind.mpr known)]
    constructor
    · intro parsed
      cases parsed
    · intro accepted
      exact absurd accepted.2.1 known

theorem max_one_ceilDiv (length : Nat) {size : Nat} (pos : 0 < size) :
    max 1 (ceilDiv length size) = ceilDiv (max length 1) size := by
  simp only [ceilDiv]
  rcases Nat.eq_zero_or_pos length with rfl | some
  · rw [show 0 + size - 1 = size - 1 by omega, Nat.div_eq_of_lt (by omega),
      show max 0 1 + size - 1 = size by omega, Nat.div_self pos]
    rfl
  · rw [Nat.max_eq_left some]
    exact Nat.max_eq_right (Nat.div_pos (by omega) pos)

theorem chunkCount_eq (length : Nat) :
    max 1 (ceilDiv length chunkV2FragmentMax) = chunkCountOf length :=
  max_one_ceilDiv length (by decide)

-- The equations of a chunk on plain numbers, as the browser and as the receiver check them.
theorem chunk_numbers (count index frameLen fragment : Nat) (inside : index < count)
    (most : count ≤ 4096) (fits : frameLen ≤ 4 * 1024 * 1024) :
    (count = max 1 (ceilDiv frameLen 1164) ∧ (fragment : Int) =
        if index + 1 = count then (frameLen : Int) - 1164 * ((count : Int) - 1) else 1164) ↔
      count = chunkCountOf frameLen ∧ fragment =
        (if index + 1 = count then frameLen - 1164 * (count - 1) else 1164) := by
  rw [show max 1 (ceilDiv frameLen 1164) = chunkCountOf frameLen from chunkCount_eq frameLen]
  refine and_congr_right fun counted => ?_
  -- The chunks before the last one are full.
  have full : 1164 * (count - 1) ≤ frameLen := by
    have rounded := Nat.div_mul_le_self (max frameLen 1 + 1164 - 1) 1164
    have same : count = (max frameLen 1 + 1164 - 1) / 1164 := counted
    rw [← same] at rounded
    clear counted same
    omega
  clear counted
  split_ifs <;> omega

theorem wellFormed_iff (chunk : Chunk) (inside : chunk.chunkIndex.toNat < chunk.chunkCount.toNat)
    (most : chunk.chunkCount.toNat ≤ 4096) (fits : chunk.encodedLen.toNat ≤ 4 * 1024 * 1024) :
    chunk.wellFormed true ↔
      chunk.chunkCount.toNat = chunkCountOf chunk.encodedLen.toNat ∧ chunk.fragment.length =
        (if chunk.chunkIndex.toNat + 1 = chunk.chunkCount.toNat then
          chunk.encodedLen.toNat - 1164 * (chunk.chunkCount.toNat - 1) else 1164) := by
  have next : (chunk.chunkIndex + 1).toNat = chunk.chunkIndex.toNat + 1 := by
    rw [UInt16.toNat_add, show (1 : UInt16).toNat = 1 from rfl]
    omega
  have zero : chunk.chunkCount ≠ 0 := by
    rw [ne_eq, ← UInt16.toNat_inj, UInt16.toNat_zero]
    omega
  have small : ¬chunk.chunkCount > v2ChunkCountMax := by
    rw [gt_iff_lt, UInt16.lt_iff_toNat_lt, show v2ChunkCountMax.toNat = 4096 from rfl]
    omega
  have within : ¬chunk.encodedLen.toNat > encodedFrameMax := Nat.not_lt.mpr fits
  simp only [Chunk.wellFormed, Chunk.expectedFragmentLen, next, zero, small, within, decide_false,
    Bool.or_self, Bool.not_false, Bool.not_true, Bool.false_or, Bool.true_and, Bool.and_eq_true,
    decide_eq_true_eq]
  rfl

theorem validChunk_iff (frameType chunkIndex chunkCount frameLen fragmentLength : Nat) :
    validChunk frameType chunkIndex chunkCount frameLen fragmentLength ↔
      frameType ≤ 1 ∧ (0 < chunkCount ∧ chunkCount ≤ 4096) ∧ chunkIndex < chunkCount ∧
      frameLen ≤ 4 * 1024 * 1024 ∧ chunkCount = chunkCountOf frameLen ∧ fragmentLength =
        (if chunkIndex + 1 = chunkCount then frameLen - 1164 * (chunkCount - 1) else 1164) := by
  have kind : (frameType = 0 ∨ frameType = 1) ↔ frameType ≤ 1 := by omega
  simp only [validChunk, Bool.and_eq_true, Bool.or_eq_true, decide_eq_true_eq, kind]
  simp only [chunkV2FragmentMax, chunkCountMax, frameMaxBytes]
  constructor
  · rintro ⟨⟨⟨⟨⟨⟨known, some⟩, most⟩, inside⟩, fits⟩, counted⟩, measured⟩
    exact ⟨known, ⟨some, most⟩, inside, fits,
      (chunk_numbers _ _ _ _ inside most fits).mp ⟨counted, measured⟩⟩
  · rintro ⟨known, ⟨some, most⟩, inside, fits, equations⟩
    obtain ⟨counted, measured⟩ := (chunk_numbers _ _ _ _ inside most fits).mpr equations
    exact ⟨⟨⟨⟨⟨⟨known, some⟩, most⟩, inside⟩, fits⟩, counted⟩, measured⟩

/-- The browser's check of a payload is the parser and the equations of the receiver. -/
theorem parseChunkV2Bytes_isSome_iff (payload : List UInt8) :
    (parseChunkV2Bytes payload).isSome ↔ HoldsChunk payload := by
  have checked : (parseChunkV2Bytes payload).isSome ↔
      (21 ≤ payload.length ∧ payload.length ≤ 1185) ∧
        validChunk (payload.getD 8 0).toNat (u16At payload 4).toNat (u16At payload 6).toNat
          (u32At payload 13).toNat (payload.length - 21) := by
    simp only [parseChunkV2Bytes, chunkHeaderV2Size, sourcePayloadMax, List.length_drop]
    split_ifs with size valid
    · simp only [Option.isSome_none, Bool.false_eq_true, false_iff]
      omega
    · simp_all
    · simp_all
  rw [checked, validChunk_iff]
  constructor
  · rintro ⟨⟨long, short⟩, known, count, inside, fits, equations⟩
    have valid := (validateChunkV2_ok_iff (readChunkV2Header payload) (payload.drop 21)).mpr
      ⟨count, inside, fits, by rw [List.length_drop]; omega⟩
    have parsed := (parseChunkV2_ok_iff payload _ _).mpr ⟨long, known, valid, rfl, rfl⟩
    refine ⟨_, by simp only [parseChunk, parsed, if_true]; rfl, ?_⟩
    refine (wellFormed_iff _ (by exact inside) (by exact count.2) (by exact fits)).mpr ?_
    rw [List.length_drop]
    exact equations
  · rintro ⟨chunk, parsed, wellFormed⟩
    rw [parseChunk, if_pos rfl] at parsed
    split at parsed
    next => cases parsed
    next header fragment accepted =>
      obtain ⟨long, known, valid, rfl, rfl⟩ := (parseChunkV2_ok_iff payload _ _).mp accepted
      cases parsed
      obtain ⟨count, inside, fits, short⟩ := (validateChunkV2_ok_iff _ _).mp valid
      rw [List.length_drop] at short
      have equations :=
        (wellFormed_iff _ (by exact inside) (by exact count.2) (by exact fits)).mp wellFormed
      rw [List.length_drop] at equations
      exact ⟨⟨long, by omega⟩, known, count, inside, fits, equations⟩

end Chunks

section Messages

-- The same symbol in the browser's terms.
def ofNative : ParsedSymbolMsg → VersionedFecSymbol
  | .v1 symbol => .v1 symbol
  | .v2 (.source epoch seq payload) => .v2 epoch.get (.source seq payload)
  | .v2 (.repair epoch repairSeq windowBase windowEnd payload) =>
    .v2 epoch.get (.repair repairSeq windowBase windowEnd payload)

-- A source has to hold a chunk.
def Deliverable : ParsedSymbolMsg → Prop
  | .v2 (.source _ _ payload) => HoldsChunk payload
  | _ => True

theorem nonZeroEpoch_iff (epoch : UInt32) :
    nonZeroEpoch epoch ↔ ∃ known, Epoch.new epoch = some known := by
  have bound := epoch.toNat_lt
  have zero : epoch.toNat > 0 ↔ epoch ≠ 0 := by
    rw [ne_eq, ← UInt32.toNat_inj, UInt32.toNat_zero]
    omega
  rw [nonZeroEpoch, Bool.and_eq_true, decide_eq_true_eq, decide_eq_true_eq, zero, Epoch.new]
  constructor
  · rintro ⟨nonzero, -⟩
    exact ⟨_, dif_pos nonzero⟩
  · rintro ⟨known, found⟩
    refine ⟨fun none => ?_, by omega⟩
    rw [dif_neg (not_not.mpr none)] at found
    cases found

theorem crc32_ne_iff (payload : List UInt8) (sum : UInt32) :
    crc32 payload ≠ (sum.toNat : Int) ↔ ieeeCrc32 payload ≠ sum := by
  rw [crc32_eq, ne_eq, Nat.cast_inj, UInt32.toNat_inj]

theorem parseV2Source_ok_iff (bytes : List UInt8) (native : V2Symbol) :
    parseV2Source bytes = .ok native ↔
      (15 ≤ bytes.length ∧ bytes.length ≤ 1200) ∧ ∃ epoch, Epoch.new (u32At bytes 1) = some epoch ∧
        (u16At bytes 9).toNat ≤ 1185 ∧ bytes.length = 15 + (u16At bytes 9).toNat ∧
        ieeeCrc32 (bytes.drop 15) = u32At bytes 11 ∧
        native = .source epoch (u32At bytes 5) (bytes.drop 15) := by
  constructor
  · intro parsed
    unfold parseV2Source at parsed
    split_ifs at parsed with short long
    cases entered : Epoch.new (u32At bytes 1) with
    | none => simp only [entered, reduceCtorEq] at parsed
    | some epoch =>
      simp only [entered] at parsed
      split_ifs at parsed with length crc
      cases parsed
      push Not at length crc
      simp only [v2SourceHeaderLen, fecMsgMax, v2SourcePayloadMax] at short long length crc
      exact ⟨⟨by omega, by omega⟩, epoch, rfl, length.1, length.2, crc, rfl⟩
  · rintro ⟨⟨long, short⟩, epoch, entered, fits, length, crc, rfl⟩
    have header : ¬bytes.length < v2SourceHeaderLen := Nat.not_lt.mpr long
    have most : ¬bytes.length > fecMsgMax := Nat.not_lt.mpr short
    have exactly : ¬((u16At bytes 9).toNat > v2SourcePayloadMax ∨
        bytes.length ≠ v2SourceHeaderLen + (u16At bytes 9).toNat) := by
      simp only [v2SourcePayloadMax, v2SourceHeaderLen]
      omega
    have sum : ¬ieeeCrc32 (bytes.drop v2SourceHeaderLen) ≠ u32At bytes 11 := not_not.mpr crc
    rw [parseV2Source, if_neg header, if_neg most, entered]
    dsimp only
    rw [if_neg exactly, if_neg sum]
    rfl

theorem parseSourceV2_some_iff (bytes : List UInt8) (symbol : VersionedFecSymbol) :
    parseSourceV2 bytes = some symbol ↔
      (15 ≤ bytes.length ∧ bytes.length ≤ 1200) ∧ nonZeroEpoch (u32At bytes 1) ∧
        (u16At bytes 9).toNat ≤ 1185 ∧ bytes.length = 15 + (u16At bytes 9).toNat ∧
        ieeeCrc32 (bytes.drop 15) = u32At bytes 11 ∧ HoldsChunk (bytes.drop 15) ∧
        symbol = .v2 (u32At bytes 1) (.source (u32At bytes 5) (bytes.drop 15)) := by
  rw [← parseChunkV2Bytes_isSome_iff]
  unfold parseSourceV2
  dsimp only
  split_ifs with size refused
  · simp only [sourceV2HeaderSize, sourceMessageMax] at size
    simp only [false_iff]
    omega
  · simp only [crc32_ne_iff, sourcePayloadMax, sourceV2HeaderSize] at refused
    simp only [false_iff]
    rintro ⟨-, nonzero, fits, length, crc, chunk, -⟩
    simp [nonzero, length, crc, Option.isSome_iff_ne_none.mp chunk] at refused
    omega
  · simp only [crc32_ne_iff, sourcePayloadMax, sourceV2HeaderSize, sourceMessageMax, not_or]
      at size refused
    obtain ⟨nonzero, fits, length, crc, chunk⟩ := refused
    constructor
    · rintro ⟨⟩
      exact ⟨by omega, by simpa using nonzero, by omega, not_not.mp length, not_not.mp crc,
        by simpa [Option.isSome_iff_ne_none] using chunk, rfl⟩
    · rintro ⟨-, -, -, -, -, -, rfl⟩
      rfl

theorem parseV2Repair_ok_iff (bytes : List UInt8) (native : V2Symbol) :
    parseV2Repair bytes = .ok native ↔
      (21 ≤ bytes.length ∧ bytes.length ≤ 1221) ∧ ∃ epoch, Epoch.new (u32At bytes 1) = some epoch ∧
        (u16At bytes 15).toNat ≤ 1200 ∧ bytes.length = 21 + (u16At bytes 15).toNat ∧
        ieeeCrc32 (bytes.drop 21) = u32At bytes 17 ∧ native =
          .repair epoch (u16At bytes 5) (u32At bytes 7) (u32At bytes 11) (bytes.drop 21) := by
  constructor
  · intro parsed
    unfold parseV2Repair at parsed
    split_ifs at parsed with short long
    cases entered : Epoch.new (u32At bytes 1) with
    | none => simp only [entered, reduceCtorEq] at parsed
    | some epoch =>
      simp only [entered] at parsed
      split_ifs at parsed with length crc
      cases parsed
      push Not at length crc
      simp only [v2RepairHeaderLen, v2RepairMsgMax, v2RepairPayloadMax] at short long length crc
      exact ⟨⟨by omega, by omega⟩, epoch, rfl, length.1, length.2, crc, rfl⟩
  · rintro ⟨⟨long, short⟩, epoch, entered, fits, length, crc, rfl⟩
    have header : ¬bytes.length < v2RepairHeaderLen := Nat.not_lt.mpr long
    have most : ¬bytes.length > v2RepairMsgMax := Nat.not_lt.mpr short
    have exactly : ¬((u16At bytes 15).toNat > v2RepairPayloadMax ∨
        bytes.length ≠ v2RepairHeaderLen + (u16At bytes 15).toNat) := by
      simp only [v2RepairPayloadMax, v2RepairHeaderLen]
      omega
    have sum : ¬ieeeCrc32 (bytes.drop v2RepairHeaderLen) ≠ u32At bytes 17 := not_not.mpr crc
    rw [parseV2Repair, if_neg header, if_neg most, entered]
    dsimp only
    rw [if_neg exactly, if_neg sum]
    rfl

theorem parseRepairV2_some_iff (bytes : List UInt8) (symbol : VersionedFecSymbol) :
    parseRepairV2 bytes = some symbol ↔
      (21 ≤ bytes.length ∧ bytes.length ≤ 1221) ∧ nonZeroEpoch (u32At bytes 1) ∧
        (u16At bytes 15).toNat ≤ 1200 ∧ bytes.length = 21 + (u16At bytes 15).toNat ∧
        ieeeCrc32 (bytes.drop 21) = u32At bytes 17 ∧ symbol = .v2 (u32At bytes 1)
          (.repair (u16At bytes 5) (u32At bytes 7) (u32At bytes 11) (bytes.drop 21)) := by
  unfold parseRepairV2
  dsimp only
  split_ifs with size refused
  · simp only [repairV2HeaderSize, repairMessageMax] at size
    simp only [false_iff]
    omega
  · simp only [crc32_ne_iff, repairPayloadMax, repairV2HeaderSize] at refused
    simp only [false_iff]
    rintro ⟨-, nonzero, fits, length, crc, -⟩
    simp [nonzero, length, crc] at refused
    omega
  · simp only [crc32_ne_iff, repairPayloadMax, repairV2HeaderSize, repairMessageMax, not_or]
      at size refused
    obtain ⟨nonzero, fits, length, crc⟩ := refused
    constructor
    · rintro ⟨⟩
      exact ⟨by omega, by simpa using nonzero, by omega, not_not.mp length, not_not.mp crc, rfl⟩
    · rintro ⟨-, -, -, -, -, rfl⟩
      rfl

theorem parseSourceV2_iff (bytes : List UInt8) (symbol : VersionedFecSymbol) :
    parseSourceV2 bytes = some symbol ↔
      ∃ native, parseV2Source bytes = .ok native ∧ Deliverable (.v2 native) ∧
        symbol = ofNative (.v2 native) := by
  simp only [parseSourceV2_some_iff, parseV2Source_ok_iff, nonZeroEpoch_iff]
  constructor
  · rintro ⟨size, ⟨epoch, entered⟩, fits, length, crc, chunk, rfl⟩
    refine ⟨_, ⟨size, epoch, entered, fits, length, crc, rfl⟩, chunk, ?_⟩
    rw [ofNative, Epoch.get_new entered]
  · rintro ⟨native, ⟨size, epoch, entered, fits, length, crc, rfl⟩, chunk, rfl⟩
    refine ⟨size, ⟨epoch, entered⟩, fits, length, crc, chunk, ?_⟩
    rw [ofNative, Epoch.get_new entered]

theorem parseRepairV2_iff (bytes : List UInt8) (symbol : VersionedFecSymbol) :
    parseRepairV2 bytes = some symbol ↔
      ∃ native, parseV2Repair bytes = .ok native ∧ Deliverable (.v2 native) ∧
        symbol = ofNative (.v2 native) := by
  simp only [parseRepairV2_some_iff, parseV2Repair_ok_iff, nonZeroEpoch_iff]
  constructor
  · rintro ⟨size, ⟨epoch, entered⟩, fits, length, crc, rfl⟩
    refine ⟨_, ⟨size, epoch, entered, fits, length, crc, rfl⟩, trivial, ?_⟩
    rw [ofNative, Epoch.get_new entered]
  · rintro ⟨native, ⟨size, epoch, entered, fits, length, crc, rfl⟩, -, rfl⟩
    refine ⟨size, ⟨epoch, entered⟩, fits, length, crc, ?_⟩
    rw [ofNative, Epoch.get_new entered]

theorem map_v2_ok_iff (result : Except FecWireError V2Symbol) (symbol : VersionedFecSymbol) :
    (∃ native, result.map ParsedSymbolMsg.v2 = .ok native ∧ Deliverable native ∧
        symbol = ofNative native) ↔
      ∃ native, result = .ok native ∧ Deliverable (.v2 native) ∧
        symbol = ofNative (.v2 native) := by
  cases result with
  | error fault => simp [Except.map]
  | ok native => simp [Except.map]

/-- The browser takes a message exactly when the native parser does and a source holds a chunk;
it reads the same fields. -/
theorem parseSymbolMessage_iff (bytes : List UInt8) (symbol : VersionedFecSymbol) :
    parseSymbolMessage bytes = some symbol ↔
      ∃ native, parseSymbolMsgVersioned bytes = .ok native ∧ Deliverable native ∧
        symbol = ofNative native := by
  cases bytes with
  | nil => simp [parseSymbolMessage, parseSymbolMsgVersioned]
  | cons kind rest =>
    rw [parseSymbolMessage, parseSymbolMsgVersioned]
    split_ifs with v1Source short v1Repair short v2Source v2Repair
    · simp
    · simp [Deliverable, ofNative, eq_comm]
    · simp
    · simp [Deliverable, ofNative, eq_comm]
    · rw [parseSourceV2_iff, map_v2_ok_iff]
    · rw [parseRepairV2_iff, map_v2_ok_iff]
    · simp

-- The same control in the browser's terms.
def ofNativeControl : V2ControlMsg → Control
  | .subscribe epoch => .subscribe epoch.get
  | .ack epoch highestSeq => .ack epoch.get highestSeq
  | .needsIdr epoch reason => .needsIdr epoch.get reason

theorem parseV2Control_ok_iff (width : Nat) (build : Epoch → V2ControlMsg) (body : List UInt8)
    (native : V2ControlMsg) :
    parseV2Control width build body = .ok (.v2 native) ↔
      body.length = width ∧ ∃ epoch, Epoch.new (u32At body 0) = some epoch ∧
        native = build epoch := by
  rw [parseV2Control]
  split_ifs with short long
  · simp
    omega
  · simp
    omega
  · have length : body.length = width := by omega
    cases Epoch.new (u32At body 0) with
    | none => simp
    | some epoch => simp [length, eq_comm]

-- One of the three kinds: a body of exactly this width, its epoch not zero.
theorem control_kind (width : Nat) (wide : 4 ≤ width) (build : Epoch → V2ControlMsg)
    (make : UInt32 → Control) (same : ∀ epoch, ofNativeControl (build epoch) = make epoch.get)
    (body : List UInt8) (control : Control) :
    ((4 ≤ body.length ∧ nonZeroEpoch (u32At body 0)) ∧ body.length = width ∧
        control = make (u32At body 0)) ↔
      ∃ native, parseV2Control width build body = .ok (.v2 native) ∧
        control = ofNativeControl native := by
  simp only [parseV2Control_ok_iff, nonZeroEpoch_iff]
  constructor
  · rintro ⟨⟨-, epoch, entered⟩, length, rfl⟩
    refine ⟨_, ⟨length, epoch, entered, rfl⟩, ?_⟩
    rw [same, Epoch.get_new entered]
  · rintro ⟨native, ⟨length, epoch, entered, rfl⟩, rfl⟩
    refine ⟨⟨by omega, epoch, entered⟩, length, ?_⟩
    rw [same, Epoch.get_new entered]

theorem parseControlMessage_cons (kind : UInt8) (body : List UInt8) (control : Control) :
    parseControlMessage (kind :: body) = some control ↔
      (4 ≤ body.length ∧ nonZeroEpoch (u32At body 0)) ∧
      ((kind = 0x82 ∧ body.length = 4 ∧ control = .subscribe (u32At body 0)) ∨
        (kind = 0x81 ∧ body.length = 8 ∧ control = .ack (u32At body 0) (u32At body 4)) ∨
        (kind = 0x80 ∧ body.length = 5 ∧ control = .needsIdr (u32At body 0) (body.getD 4 0))) := by
  simp only [parseControlMessage, List.length_cons, List.getD_cons_zero, List.getD_cons_succ,
    u32At_cons body 0, u32At_cons body 4, Bool.not_eq_true']
  split_ifs with short zero subscribe ack needsIdr
  · simp only [false_iff, not_and]
    omega
  · simp [zero]
  · obtain ⟨rfl, length⟩ := subscribe
    simp only [Option.some.injEq, Bool.not_eq_false] at zero ⊢
    constructor
    · rintro rfl
      exact ⟨⟨by omega, zero⟩, .inl ⟨trivial, by omega, rfl⟩⟩
    · rintro ⟨-, ⟨-, -, rfl⟩ | ⟨other, -⟩ | ⟨other, -⟩⟩
      · rfl
      · exact absurd other (by decide)
      · exact absurd other (by decide)
  · obtain ⟨rfl, length⟩ := ack
    simp only [Option.some.injEq, Bool.not_eq_false] at zero ⊢
    constructor
    · rintro rfl
      exact ⟨⟨by omega, zero⟩, .inr (.inl ⟨trivial, by omega, rfl⟩)⟩
    · rintro ⟨-, ⟨other, -⟩ | ⟨-, -, rfl⟩ | ⟨other, -⟩⟩
      · exact absurd other (by decide)
      · rfl
      · exact absurd other (by decide)
  · obtain ⟨rfl, length⟩ := needsIdr
    simp only [Option.some.injEq, Bool.not_eq_false] at zero ⊢
    constructor
    · rintro rfl
      exact ⟨⟨by omega, zero⟩, .inr (.inr ⟨trivial, by omega, rfl⟩)⟩
    · rintro ⟨-, ⟨other, -⟩ | ⟨other, -⟩ | ⟨-, -, rfl⟩⟩
      · exact absurd other (by decide)
      · exact absurd other (by decide)
      · rfl
  · simp only [false_iff, not_and, not_or]
    intro _
    exact ⟨fun same length _ => subscribe ⟨same, by omega⟩, fun same length _ =>
      ack ⟨same, by omega⟩, fun same length _ => needsIdr ⟨same, by omega⟩⟩

/-- The browser takes a control exactly when the native parser reads a version 2 one; it reads the
same fields. -/
theorem parseControlMessage_iff (bytes : List UInt8) (control : Control) :
    parseControlMessage bytes = some control ↔
      ∃ native, parseControlMsg bytes = .ok (.v2 native) ∧ control = ofNativeControl native := by
  cases bytes with
  | nil => simp [parseControlMessage, parseControlMsg]
  | cons kind body =>
    rw [parseControlMessage_cons]
    rw [parseControlMsg]
    by_cases needsIdr : kind = 0x80
    · subst needsIdr
      rw [if_pos rfl, ← control_kind 5 (by omega) _ (.needsIdr · (body.getD 4 0)) fun _ => rfl]
      simp
    by_cases ack : kind = 0x81
    · subst ack
      rw [if_neg (by decide), if_pos rfl,
        ← control_kind 8 (by omega) _ (.ack · (u32At body 4)) fun _ => rfl]
      simp
    by_cases subscribe : kind = 0x82
    · subst subscribe
      rw [if_neg (by decide), if_neg (by decide), if_pos rfl,
        ← control_kind 4 (by omega) _ .subscribe fun _ => rfl]
      simp
    rw [if_neg needsIdr, if_neg ack, if_neg subscribe]
    simp only [needsIdr, ack, subscribe, false_and, or_self, and_false, false_iff]
    rintro ⟨native, parsed, -⟩
    split_ifs at parsed <;> cases parsed

end Messages

section Cutting

open LittleEndian (overwrite_zeros)

theorem chunkV2Buffer_eq (frameId : UInt32) (isKey : Bool) (timestampUs : UInt32)
    (data fragment : List UInt8) (index : Nat) :
    chunkV2Buffer frameId (if isKey then 1 else 0) timestampUs data fragment index
        (chunkCountOf data.length) =
      chunkV2Bytes (chunkHeaderV2 frameId isKey timestampUs data index) fragment := by
  have sum : LittleEndian.bytes 4 (crc32 data).toNat = leU32 (ieeeCrc32 data) := by
    rw [crc32_eq, Int.toNat_natCast]
    rfl
  have zeros : List.replicate (chunkHeaderV2Size + fragment.length) (0 : UInt8) =
      [] ++ List.replicate (21 + fragment.length) 0 := rfl
  rw [chunkV2Buffer, sum, zeros, overwrite_zeros [] _ 0 _ (by simp),
    overwrite_zeros _ _ 4 _ (by simp), overwrite_zeros _ _ 6 _ (by simp),
    overwrite_zeros _ _ 8 _ (by simp), overwrite_zeros _ _ 9 _ (by simp),
    overwrite_zeros _ _ 13 _ (by simp), overwrite_zeros _ _ 17 _ (by simp),
    overwrite_zeros _ _ _ _ (by simp [chunkHeaderV2Size])]
  have full : 21 + fragment.length - (leU32 frameId).length -
      (leU16 (UInt16.ofNat index)).length -
      (leU16 (UInt16.ofNat (chunkCountOf data.length))).length - 1 -
      (leU32 timestampUs).length - (leU32 (UInt32.ofNat data.length)).length -
      (leU32 (ieeeCrc32 data)).length - fragment.length = 0 := by
    simp only [length_leU32, length_leU16]
    omega
  rw [List.length_singleton, full, List.replicate_zero, List.append_nil, List.nil_append]
  rfl

theorem fragment_eq (data : List UInt8) (index : Nat) :
    (data.drop (index * chunkV2FragmentMax)).take
        (min (index * chunkV2FragmentMax + chunkV2FragmentMax) data.length -
          index * chunkV2FragmentMax) =
      fragmentAt data index := by
  have place : index * chunkV2FragmentMax = BetterParsec.chunkV2FragmentMax * index :=
    Nat.mul_comm _ _
  rw [fragmentAt, place, List.take_eq_take_iff, List.length_drop]
  simp only [chunkV2FragmentMax, BetterParsec.chunkV2FragmentMax]
  omega

/-- Both chunkers cut a frame within the size limit into the same byte strings. -/
theorem chunkFrameV2_same (frameId : UInt32) (isKey : Bool) (timestampUs : UInt32)
    (data : List UInt8) (fits : data.length ≤ 4 * 1024 * 1024) :
    ∃ chunks, chunkFrameV2 frameId isKey timestampUs data = .ok chunks ∧
      BetterParsec.chunkFrameV2 frameId isKey timestampUs data = .ok chunks := by
  refine ⟨_, ?_, chunkFrameV2_eq frameId isKey timestampUs fits⟩
  have most := chunkCountOf_le fits
  have small : ¬data.length > frameMaxBytes := Nat.not_lt.mpr fits
  have few : ¬chunkCountOf data.length > chunkCountMax := Nat.not_lt.mpr most
  rw [chunkFrameV2, if_neg small]
  dsimp only
  rw [chunkCount_eq, if_neg few]
  simp only [fragment_eq, chunkV2Buffer_eq]

/-- The codec of the browser and the native one agree. -/
theorem codecs_agree :
    (∀ bytes symbol, parseSymbolMessage bytes = some symbol ↔
      ∃ native, parseSymbolMsgVersioned bytes = .ok native ∧
        (∀ epoch seq payload, native = .v2 (.source epoch seq payload) → HoldsChunk payload) ∧
        symbol = ofNative native) ∧
    (∀ bytes control, parseControlMessage bytes = some control ↔
      ∃ native, parseControlMsg bytes = .ok (.v2 native) ∧
        control = ofNativeControl native) ∧
    ∀ (frameId : UInt32) (isKey : Bool) (timestampUs : UInt32) (data : List UInt8),
      data.length ≤ 4 * 1024 * 1024 →
        ∃ chunks, chunkFrameV2 frameId isKey timestampUs data = .ok chunks ∧
          BetterParsec.chunkFrameV2 frameId isKey timestampUs data = .ok chunks := by
  have deliverable (native : ParsedSymbolMsg) : Deliverable native ↔
      ∀ epoch seq payload, native = .v2 (.source epoch seq payload) → HoldsChunk payload := by
    constructor
    · rintro holds epoch seq payload rfl
      exact holds
    · intro holds
      match native with
      | .v1 _ => trivial
      | .v2 (.repair _ _ _ _ _) => trivial
      | .v2 (.source epoch seq payload) => exact holds epoch seq payload rfl
  refine ⟨fun bytes symbol => ?_, parseControlMessage_iff, chunkFrameV2_same⟩
  simp only [parseSymbolMessage_iff, deliverable]

end Cutting


end Web

end BetterParsec
