import BetterParsec.Wire.SymbolMessages
import BetterParsec.Library.ShiftRegister

set_option autoImplicit false
set_option linter.all false

/-!
# Burst errors in symbol payloads

The checksum loop of `fec_wire.rs` as a feedback shift register, and what its checksum catches: a
payload in which only bits within 32 consecutive ones were flipped never passes for the payload
that was sent.
-/

namespace BetterParsec

def crcPolynomial : BitVec 32 := 0xedb88320#32

/-- The bits of a byte string in the order in which they go out, each byte from its lowest bit. -/
def bitsOf (bytes : List UInt8) : List Bool :=
  bytes.flatMap fun byte => ShiftRegister.lowBits 8 byte.toBitVec

theorem mask_low_bit (x : BitVec 32) :
    0#32 - (x &&& 1#32) = if x.getLsbD 0 then 0xffffffff#32 else 0#32 := by
  rw [BitVec.and_one_eq_setWidth_ofBool_getLsbD]
  cases x.getLsbD 0 <;> rfl

theorem crcBit_toBitVec (crc : UInt32) :
    (crcBit crc).toBitVec = ShiftRegister.step crcPolynomial crc.toBitVec := by
  have masked : (crcBit crc).toBitVec =
      (crc.toBitVec >>> 1) ^^^ (crcPolynomial &&& (0#32 - (crc.toBitVec &&& 1#32))) := by
    simp [crcBit, crcPolynomial]
  rw [masked, mask_low_bit, ShiftRegister.step]
  cases crc.toBitVec.getLsbD 0 <;> rfl

theorem crcBit_iterate (count : Nat) (crc : UInt32) :
    (crcBit^[count] crc).toBitVec = (ShiftRegister.step crcPolynomial)^[count] crc.toBitVec := by
  induction count generalizing crc with
  | zero => rfl
  | succ count ih =>
    rw [Function.iterate_succ_apply, Function.iterate_succ_apply, ih, crcBit_toBitVec]

theorem crc_step_byte (crc : UInt32) (byte : UInt8) :
    (crcBit^[8] (crc ^^^ byte.toUInt32)).toBitVec =
      ShiftRegister.run crcPolynomial crc.toBitVec (ShiftRegister.lowBits 8 byte.toBitVec) := by
  have narrow : byte.toUInt32.toBitVec >>> 8 = 0#32 := by
    apply BitVec.eq_of_toNat_eq
    have small := byte.toNat_lt
    simp only [BitVec.toNat_ushiftRight, UInt32.toNat_toBitVec, UInt8.toNat_toUInt32,
      BitVec.toNat_ofNat, Nat.shiftRight_eq_div_pow]
    omega
  have widened : ShiftRegister.lowBits 8 byte.toUInt32.toBitVec =
      ShiftRegister.lowBits 8 byte.toBitVec := by
    simp only [ShiftRegister.lowBits, UInt8.toBitVec_toUInt32]
    simp
  rw [crcBit_iterate, UInt32.toBitVec_xor, ← widened]
  exact ShiftRegister.step_iterate_xor crcPolynomial 8 _ _ narrow

theorem foldl_toBitVec (bytes : List UInt8) (crc : UInt32) :
    (bytes.foldl (fun crc byte => crcBit^[8] (crc ^^^ byte.toUInt32)) crc).toBitVec =
      ShiftRegister.run crcPolynomial crc.toBitVec (bitsOf bytes) := by
  induction bytes generalizing crc with
  | nil => rfl
  | cons byte rest ih =>
    rw [List.foldl_cons, ih, crc_step_byte]
    exact (ShiftRegister.run_append crcPolynomial _ _ _).symm

theorem bitsOf_length (bytes : List UInt8) : (bitsOf bytes).length = 8 * bytes.length := by
  induction bytes with
  | nil => rfl
  | cons byte rest ih =>
    have first : (ShiftRegister.lowBits 8 byte.toBitVec).length = 8 := rfl
    rw [bitsOf, List.flatMap_cons, List.length_append, List.length_cons, first]
    rw [bitsOf] at ih
    omega

/-- `received` is `sent` with some bits flipped, all within 32 consecutive ones. -/
structure Burst (sent received : List UInt8) (first : Nat) : Prop where
  length : received.length = sent.length
  flipped : ∃ i, (bitsOf received).getD i false ≠ (bitsOf sent).getD i false
  within : ∀ i, (bitsOf received).getD i false ≠ (bitsOf sent).getD i false →
    first ≤ i ∧ i < first + 32

theorem ieeeCrc32_burst {sent received : List UInt8} {first : Nat}
    (burst : Burst sent received first) : ieeeCrc32 received ≠ ieeeCrc32 sent := by
  intro collided
  obtain ⟨i, differs⟩ := burst.flipped
  have lengths : (bitsOf received).length = (bitsOf sent).length := by
    rw [bitsOf_length, bitsOf_length, burst.length]
  have registers : ShiftRegister.run crcPolynomial (~~~ 0 : UInt32).toBitVec (bitsOf received) =
      ShiftRegister.run crcPolynomial (~~~ 0 : UInt32).toBitVec (bitsOf sent) := by
    rw [← foldl_toBitVec, ← foldl_toBitVec]
    exact congrArg UInt32.toBitVec (UInt32.not_inj.1 collided)
  apply differs
  rw [ShiftRegister.run_burst crcPolynomial (by decide) _ _ _ lengths first burst.within registers]

def V2Symbol.payload : V2Symbol → Payload
  | .source _ _ payload => payload
  | .repair _ _ _ _ payload => payload

/-- A version 2 symbol whose payload suffered a burst on its way is never accepted. -/
theorem encodeSymbolMsgV2_burst (symbol : V2Symbol) (buf : List UInt8)
    (encoded : encodeSymbolMsgV2 symbol = .ok buf) :
    ∃ header, buf = header ++ symbol.payload ∧
      ∀ received first, Burst symbol.payload received first →
        parseSymbolMsgVersioned (header ++ received) = .error .crcMismatch := by
  cases symbol with
  | source epoch seq payload =>
    simp only [encodeSymbolMsgV2] at encoded
    split at encoded
    · contradiction
    · rename_i fits
      cases encoded
      have counted : (UInt16.ofNat payload.length).toNat = payload.length :=
        UInt16.toNat_ofNat_of_lt' (Nat.lt_of_le_of_lt (Nat.le_of_not_gt fits) (by decide))
      refine ⟨2 :: (leU32 epoch.get ++ leU32 seq ++ leU16 (UInt16.ofNat payload.length) ++
        leU32 (ieeeCrc32 payload)), by simp [v2Tail, V2Symbol.payload], ?_⟩
      intro received first (burst : Burst payload received first)
      have parsed := parseV2Source_tail epoch seq (UInt16.ofNat payload.length)
        (ieeeCrc32 payload) received (counted.trans burst.length.symm)
        (burst.length.symm ▸ Nat.le_of_not_gt fits)
      rw [if_pos (ieeeCrc32_burst burst)] at parsed
      simp only [List.append_assoc, List.cons_append] at parsed ⊢
      simp only [parseSymbolMsgVersioned, parsed]
      rfl
  | repair epoch repairSeq windowBase windowEnd payload =>
    simp only [encodeSymbolMsgV2] at encoded
    split at encoded
    · contradiction
    · rename_i fits
      cases encoded
      have counted : (UInt16.ofNat payload.length).toNat = payload.length :=
        UInt16.toNat_ofNat_of_lt' (Nat.lt_of_le_of_lt (Nat.le_of_not_gt fits) (by decide))
      refine ⟨3 :: (leU32 epoch.get ++ leU16 repairSeq ++ leU32 windowBase ++ leU32 windowEnd ++
        leU16 (UInt16.ofNat payload.length) ++ leU32 (ieeeCrc32 payload)),
        by simp [v2Tail, V2Symbol.payload], ?_⟩
      intro received first (burst : Burst payload received first)
      have parsed := parseV2Repair_tail epoch repairSeq windowBase windowEnd
        (UInt16.ofNat payload.length) (ieeeCrc32 payload) received
        (counted.trans burst.length.symm) (burst.length.symm ▸ Nat.le_of_not_gt fits)
      rw [if_pos (ieeeCrc32_burst burst)] at parsed
      simp only [List.append_assoc, List.cons_append] at parsed ⊢
      simp only [parseSymbolMsgVersioned, parsed]
      rfl

/-- One flipped bit in a payload of one byte. -/
theorem encodeSymbolMsgV2_burst_single :
    ∃ header, (2 :: (leU32 1 ++ leU32 0 ++ v2Tail [5]) : List UInt8) = header ++ [5] ∧
      parseSymbolMsgVersioned (header ++ [4]) = .error .crcMismatch := by
  obtain ⟨header, framed, refused⟩ :=
    encodeSymbolMsgV2_burst (.source ⟨1, by decide⟩ 0 [5]) _ rfl
  refine ⟨header, framed, refused [4] 0 ⟨rfl, ⟨0, by decide⟩, ?_⟩⟩
  intro i differs
  refine ⟨Nat.zero_le i, ?_⟩
  by_contra far
  rw [List.getD_eq_default _ _ (by rw [bitsOf_length]; simp; omega),
    List.getD_eq_default _ _ (by rw [bitsOf_length]; simp [V2Symbol.payload]; omega)] at differs
  exact differs rfl

end BetterParsec
