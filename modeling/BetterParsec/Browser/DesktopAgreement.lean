import BetterParsec.Browser.DesktopControl

set_option autoImplicit false
set_option linter.all false

/-!
# The two desktop control codecs agree

Every decoder of `desktop_control.ts` accepts what its counterpart accepts and
reads the same fields, the encoders write the same bytes, and what is written is
read back.  A file name that starts with a byte order mark is read without it by
the browser.
-/

namespace BetterParsec

namespace DesktopControl

open JsNumber

-- The messages in the types of the browser.
section Views

def DowngradeReason.name : DowngradeReason → String
  | .unsupported => "unsupported"
  | .capabilityMismatch => "capability_mismatch"
  | .resourceBusy => "resource_busy"
  | .staleGeneration => "stale_generation"
  | .policyDenied => "policy_denied"
  | .transientError => "transient_error"
  | .versionMismatch => "version_mismatch"
  | .unknown _ => "unknown"

def DowngradeReason.web (reason : DowngradeReason) : Web.DesktopControl.DowngradeReason :=
  ⟨reason.name, reason.toU8.toNat⟩

def ControlEnvelope.web (envelope : ControlEnvelope) : Web.DesktopControl.ControlEnvelope :=
  ⟨envelope.domain.toNat, envelope.kind.toNat, envelope.generation.toNat, envelope.payload⟩

def TransitionStatus.web : TransitionStatus → Web.DesktopControl.TransitionStatus
  | .applied => .applied
  | .downgraded => .downgraded
  | .rejected => .rejected

def ModeRequest.web (req : ModeRequest) : Web.DesktopControl.ModeRequest :=
  ⟨req.outputId.toNat, req.width.toNat, req.height.toNat, req.refreshMhz.toNat⟩

def ModeResult.web (res : ModeResult) : Web.DesktopControl.ModeResult :=
  { outputId := res.outputId.toNat
    width := res.width.toNat
    height := res.height.toNat
    refreshMhz := res.refreshMhz.toNat
    status := res.status.web
    reason := res.reason.map DowngradeReason.web }

def Privacy.PrivacyRequest.web (req : PrivacyRequest) : Web.DesktopControl.PrivacyRequest :=
  ⟨req.enable, req.protections.toNat⟩

def Privacy.PrivacyState.web (state : PrivacyState) : Web.DesktopControl.PrivacyState :=
  ⟨state.active, state.protectionsEffective.toNat, state.status.web,
    state.reason.map DowngradeReason.web⟩

def Cursor.CursorOwner.web : CursorOwner → Web.DesktopControl.CursorOwner
  | .host => .host
  | .client => .client

def FileTransfer.FileOffer.web (offer : FileOffer) : Web.DesktopControl.FileOffer :=
  ⟨offer.transferId.toNat, offer.totalSize.toNat, Utf16.encode offer.name⟩

end Views

section Numbers

theorem bitAnd_byte (byte : UInt8) : bitAnd (byte.toNat : Int) 0xff = byte.toNat :=
  @bitAnd_mask byte.toNat 8 (by decide) byte.toNat_lt

theorem bitAnd_u16 (value : UInt16) : bitAnd (value.toNat : Int) 0xffff = value.toNat :=
  @bitAnd_mask value.toNat 16 (by decide) value.toNat_lt

theorem shiftRightUnsigned_u32 (value : UInt32) :
    shiftRightUnsigned (value.toNat : Int) 0 = value.toNat :=
  shiftRightUnsigned_natCast value.toNat_lt

theorem forall_byte {P : UInt8 → Prop} (each : ∀ n < 256, P (UInt8.ofNat n)) (byte : UInt8) :
    P byte := by
  have held := each byte.toNat byte.toNat_lt
  rwa [UInt8.ofNat_toNat] at held

theorem transitionStatusNames_byte (byte : UInt8) :
    Web.DesktopControl.transitionStatusNames (byte.toNat : Int) =
      (TransitionStatus.fromU8 byte).map TransitionStatus.web :=
  forall_byte (P := fun byte => Web.DesktopControl.transitionStatusNames (byte.toNat : Int) =
    (TransitionStatus.fromU8 byte).map TransitionStatus.web) (by decide +kernel) byte

theorem downgradeReason_byte (byte : UInt8) :
    Web.DesktopControl.downgradeReason (byte.toNat : Int) =
      (DowngradeReason.fromU8 byte).map DowngradeReason.web := by
  by_cases known : byte ∈ ([0, 1, 2, 3, 4, 5, 6, 7] : List UInt8)
  · have all : ∀ byte ∈ ([0, 1, 2, 3, 4, 5, 6, 7] : List UInt8),
        Web.DesktopControl.downgradeReason (byte.toNat : Int) =
          (DowngradeReason.fromU8 byte).map DowngradeReason.web := by
      simp only [List.forall_mem_cons]
      exact ⟨rfl, rfl, rfl, rfl, rfl, rfl, rfl, rfl, List.forall_mem_nil _⟩
    exact all byte known
  · -- A code outside the table keeps the name of an unknown one.
    rw [fromU8_unknown known]
    simp only [List.mem_cons, List.not_mem_nil, or_false, not_or, ← UInt8.toNat_inj,
      UInt8.toNat_ofNat, Nat.reducePow, Nat.reduceMod] at known
    have missing : Web.DesktopControl.downgradeReasons.lookup (byte.toNat : Int) = none := by
      simp only [Web.DesktopControl.downgradeReasons, List.lookup_eq_none_iff,
        List.forall_mem_cons, bne_iff_ne, List.not_mem_nil, false_imp_iff,
        implies_true, and_true]
      omega
    have nonzero : ¬(byte.toNat : Int) = 0 := by omega
    rw [Web.DesktopControl.downgradeReason, if_neg nonzero, missing]
    rfl

theorem reasonCode_web (reason : Option DowngradeReason) :
    Web.DesktopControl.reasonCode (reason.map DowngradeReason.web) = (reasonByte reason).toNat := by
  cases reason with
  | none => rfl
  | some reason => exact bitAnd_byte reason.toU8

theorem transitionStatusCodes_web (status : TransitionStatus) :
    Web.DesktopControl.transitionStatusCodes status.web = status.toU8.toNat := by
  cases status <;> rfl

end Numbers

section Buffers

open Web.DesktopControl (setUint zeros uint8Array readU64LE writeU64LE)

/-- The next field of a buffer that is being filled from the front. -/
theorem setUint_next (filled : List UInt8) (width n left : Nat) {first : Nat}
    (place : filled.length = first) :
    setUint width (filled ++ List.replicate left 0) first (n : Int) =
      (filled ++ LittleEndian.bytes width n) ++ List.replicate (left - width) 0 := by
  have field : LittleEndian.bytes width ((n : Int) % 256 ^ width).toNat =
      LittleEndian.bytes width n := by
    rw [← LittleEndian.bytes_mod width n]
    congr 1
  rw [setUint, field, LittleEndian.overwrite_zeros _ _ _ _ place, LittleEndian.length_bytes]

theorem writeU64LE_next (filled : List UInt8) (value : UInt64) (left : Nat) {first : Nat}
    (place : filled.length = first) :
    writeU64LE (filled ++ List.replicate left 0) first (value.toNat : Int) =
      (filled ++ FileTransfer.leU64 value) ++ List.replicate (left - 8) 0 := by
  have low : (value.toNat : Int).tmod Web.DesktopControl.u32Mod =
      ((value.toNat % 256 ^ 4 : Nat) : Int) := rfl
  have high : (value.toNat : Int) / Web.DesktopControl.u32Mod =
      ((value.toNat / 4294967296 : Nat) : Int) := rfl
  rw [writeU64LE, low, high, setUint_next filled 4 _ left place, LittleEndian.bytes_mod,
    setUint_next _ 4 _ _ (by rw [List.length_append, LittleEndian.length_bytes, place]),
    FileTransfer.leU64_split, List.append_assoc filled, Nat.sub_sub]

theorem readU64LE_of_lt {bytes : List UInt8} {first : Nat} (inside : first + 8 ≤ bytes.length)
    (small : (FileTransfer.u64At bytes first).toNat < 2 ^ 53) :
    readU64LE bytes first = (FileTransfer.u64At bytes first).toNat := by
  have halves := FileTransfer.u64At_split bytes first inside
  have number : (Web.DesktopControl.getUint32 bytes (first + 4) * Web.DesktopControl.u32Mod +
      Web.DesktopControl.getUint32 bytes first).toNat =
        (FileTransfer.u64At bytes first).toNat := by
    simp only [Web.DesktopControl.getUint32, Web.DesktopControl.u32Mod]
    omega
  rw [readU64LE, number, nearestDouble_of_lt small]

theorem uint8Array_bytes (bytes : List UInt8) :
    uint8Array (bytes.map (fun byte => (byte.toNat : Int))) = bytes := by
  induction bytes with
  | nil => rfl
  | cons byte rest ih =>
    have small := byte.toNat_lt
    have kept : UInt8.ofNat ((byte.toNat : Int) % 256).toNat = byte := by
      rw [show ((byte.toNat : Int) % 256).toNat = byte.toNat by omega, UInt8.ofNat_toNat]
    rw [uint8Array] at ih
    rw [uint8Array, List.map_cons, List.map_cons, ih, kept]

end Buffers

section Decoders

variable (bytes : List UInt8)

theorem decodeEnvelope_web :
    Web.DesktopControl.decodeEnvelope bytes = (decodeEnvelope bytes).map ControlEnvelope.web := by
  have version : Web.DesktopControl.getUint8 bytes 0 ≠ Web.DesktopControl.controlVersion ↔
      bytes.getD 0 0 ≠ controlVersion := by
    rw [Web.DesktopControl.getUint8, Web.DesktopControl.controlVersion, controlVersion, ne_eq,
      ne_eq, ← UInt8.toNat_inj]
    norm_cast
  have most : Web.DesktopControl.getUint32 bytes 8 > Web.DesktopControl.controlMaxPayload ↔
      (u32At bytes 8).toNat > controlMaxPayload := by
    rw [Web.DesktopControl.getUint32, Web.DesktopControl.controlMaxPayload, controlMaxPayload]
    norm_cast
  have body : (bytes.length : Int) <
      Web.DesktopControl.controlHeaderLen + Web.DesktopControl.getUint32 bytes 8 ↔
        bytes.length < controlHeaderLen + (u32At bytes 8).toNat := by
    rw [Web.DesktopControl.getUint32, Web.DesktopControl.controlHeaderLen, controlHeaderLen]
    norm_cast
  unfold Web.DesktopControl.decodeEnvelope decodeEnvelope
  simp only [version, most, body]
  change (if bytes.length < controlHeaderLen then none else _) = _
  split_ifs <;> rfl

theorem decodeModeRequest_web :
    Web.DesktopControl.decodeModeRequest bytes =
      (decodeModeRequest bytes).map ModeRequest.web := by
  unfold Web.DesktopControl.decodeModeRequest decodeModeRequest
  change (if bytes.length < modeRequestLen then none else _) = _
  split_ifs <;> rfl

theorem decodeModeResult_web :
    Web.DesktopControl.decodeModeResult bytes = (decodeModeResult bytes).map ModeResult.web := by
  unfold Web.DesktopControl.decodeModeResult decodeModeResult
  change (if bytes.length < modeResultLen then none else _) = _
  rw [Web.DesktopControl.getUint8, transitionStatusNames_byte, Web.DesktopControl.getUint8,
    downgradeReason_byte]
  split_ifs
  · rfl
  · cases TransitionStatus.fromU8 (bytes.getD 10 0) <;> rfl

theorem Privacy.decodeRequest_web :
    Web.DesktopControl.decodePrivacyRequest bytes =
      (decodeRequest bytes).map PrivacyRequest.web := by
  have reserved := forall_byte (P := fun byte =>
    (bitAnd (byte.toNat : Int) (bitNot Web.DesktopControl.protectAll) ≠ 0 ↔
      byte &&& ~~~ protectAll ≠ 0)) (by decide +kernel) (bytes.getD 1 0)
  have flag : decide (Web.DesktopControl.getUint8 bytes 0 ≠ 0) =
      decide (bytes.getD 0 0 ≠ 0) := by
    rw [Web.DesktopControl.getUint8, decide_eq_decide, ne_eq, ne_eq, ← UInt8.toNat_inj]
    norm_cast
  unfold Web.DesktopControl.decodePrivacyRequest decodeRequest
  rw [flag]
  simp only [Web.DesktopControl.getUint8, reserved]
  change (if bytes.length < privacyRequestLen then none else _) = _
  split_ifs <;> rfl

theorem Privacy.decodeState_web :
    Web.DesktopControl.decodePrivacyState bytes = (decodeState bytes).map PrivacyState.web := by
  have flag : decide (Web.DesktopControl.getUint8 bytes 0 ≠ 0) =
      decide (bytes.getD 0 0 ≠ 0) := by
    rw [Web.DesktopControl.getUint8, decide_eq_decide, ne_eq, ne_eq, ← UInt8.toNat_inj]
    norm_cast
  unfold Web.DesktopControl.decodePrivacyState decodeState
  change (if bytes.length < privacyStateLen then none else _) = _
  rw [flag, Web.DesktopControl.getUint8, transitionStatusNames_byte, Web.DesktopControl.getUint8,
    Web.DesktopControl.getUint8, downgradeReason_byte]
  split_ifs
  · rfl
  · cases TransitionStatus.fromU8 (bytes.getD 2 0) <;> rfl

theorem Cursor.decodeAuthority_web :
    Web.DesktopControl.decodeCursorAuthority bytes =
      (decodeAuthority bytes).map CursorOwner.web := by
  have owner := forall_byte (P := fun byte =>
    Web.DesktopControl.cursorOwnerNames (byte.toNat : Int) =
      (CursorOwner.fromU8 byte).map CursorOwner.web) (by decide +kernel) (bytes.getD 0 0)
  unfold Web.DesktopControl.decodeCursorAuthority decodeAuthority
  change (if bytes.length < cursorAuthorityLen then none else _) = _
  rw [Web.DesktopControl.getUint8, owner]
  split_ifs <;> rfl

theorem ClipboardKinds.bitAnd_clipAll (byte : UInt8) :
    bitAnd (byte.toNat : Int) Web.DesktopControl.clipAll = ((byte &&& clipAll).toNat : Int) :=
  bitAnd_natCast (n := 7) (by have := byte.toNat_lt; omega) (by decide)

theorem ClipboardKinds.decodeOffer_web :
    Web.DesktopControl.decodeClipboardOffer bytes =
      (decodeOffer bytes).map (fun kinds => (kinds.toNat : Int)) := by
  unfold Web.DesktopControl.decodeClipboardOffer decodeOffer
  change (if bytes.length < clipboardOfferLen then none else _) = _
  rw [Web.DesktopControl.getUint8, bitAnd_clipAll]
  split_ifs <;> rfl

theorem ClipboardKinds.decodeRequest_web :
    Web.DesktopControl.decodeClipboardRequest bytes =
      (decodeRequest bytes).map (fun kind => (kind.toNat : Int)) := by
  -- A lone known bit: counted here, found by `kind & (kind - 1)` in the browser.
  have refused := forall_byte (P := fun kind =>
    ((bitAnd (kind.toNat : Int) (bitNot Web.DesktopControl.clipAll) ≠ 0 ∨ (kind.toNat : Int) = 0 ∨
      bitAnd (kind.toNat : Int) ((kind.toNat : Int) - 1) ≠ 0) ↔
        (kind &&& ~~~ clipAll ≠ 0 ∨ countOnes kind ≠ 1))) (by decide +kernel) (bytes.getD 0 0)
  unfold Web.DesktopControl.decodeClipboardRequest decodeRequest
  change (if bytes.length < clipboardRequestLen then none else _) = _
  simp only [Web.DesktopControl.getUint8, refused]
  split_ifs <;> rfl

namespace FileTransfer

open Web.DesktopControl (readU64LE withoutMark)

def FileOffer.BeginsWithMark (offer : FileOffer) : Prop := offer.name.head? = some '\uFEFF'

theorem withoutMark_of_not {offer : FileOffer} (plain : ¬offer.BeginsWithMark) :
    withoutMark offer.name = offer.name := by
  unfold FileOffer.BeginsWithMark at plain
  cases named : offer.name with
  | nil => rfl
  | cons c text =>
    rw [named, List.head?_cons, Option.some.injEq] at plain
    rw [withoutMark, if_neg plain]

/-- The browser reads the same offers, with the size as a double and without a leading mark. -/
theorem decodeOffer_web :
    Web.DesktopControl.decodeFileOffer bytes = (decodeOffer bytes).map (fun offer =>
      ⟨offer.transferId.toNat, readU64LE bytes 4, Utf16.encode (withoutMark offer.name)⟩) := by
  have most : Web.DesktopControl.getUint16 bytes 12 > Web.DesktopControl.ftMaxNameLen ↔
      (u16At bytes 12).toNat > ftMaxNameLen := by
    rw [Web.DesktopControl.getUint16, Web.DesktopControl.ftMaxNameLen, ftMaxNameLen]
    norm_cast
  have body : (bytes.length : Int) <
      Web.DesktopControl.ftOfferHeaderLen + Web.DesktopControl.getUint16 bytes 12 ↔
        bytes.length < ftOfferHeaderLen + (u16At bytes 12).toNat := by
    rw [Web.DesktopControl.getUint16, Web.DesktopControl.ftOfferHeaderLen, ftOfferHeaderLen]
    norm_cast
  have field : LittleEndian.slice bytes Web.DesktopControl.ftOfferHeaderLen
      (Web.DesktopControl.getUint16 bytes 12).toNat =
        LittleEndian.slice bytes ftOfferHeaderLen (u16At bytes 12).toNat := rfl
  unfold Web.DesktopControl.decodeFileOffer decodeOffer
  simp only [most, body, field, Web.DesktopControl.textDecode]
  change (if bytes.length < ftOfferHeaderLen then none else _) = _
  split_ifs
  · rfl
  · rfl
  · rfl
  · cases Utf8.decode (LittleEndian.slice bytes ftOfferHeaderLen (u16At bytes 12).toNat) <;> rfl

theorem decodeOffer_size {offer : FileOffer} (decoded : decodeOffer bytes = some offer) :
    ftOfferHeaderLen ≤ bytes.length ∧ u64At bytes 4 = offer.totalSize := by
  unfold decodeOffer at decoded
  dsimp only at decoded
  split_ifs at decoded with short
  cases name : Utf8.decode (LittleEndian.slice bytes ftOfferHeaderLen (u16At bytes 12).toNat) with
  | none =>
    rw [name] at decoded
    cases decoded
  | some text =>
    rw [name] at decoded
    cases decoded
    exact ⟨Nat.not_lt.mp short, rfl⟩

theorem decodeOffer_web_of_lt {offer : FileOffer} (decoded : decodeOffer bytes = some offer)
    (small : offer.totalSize.toNat < 2 ^ 53) (plain : ¬offer.BeginsWithMark) :
    Web.DesktopControl.decodeFileOffer bytes = some offer.web := by
  obtain ⟨long, size⟩ := decodeOffer_size bytes decoded
  have header : ftOfferHeaderLen = 14 := rfl
  have number : readU64LE bytes 4 = (offer.totalSize.toNat : Int) := by
    rw [← size]
    exact readU64LE_of_lt (by omega) (by rw [size]; exact small)
  rw [decodeOffer_web, decoded, Option.map_some, number, withoutMark_of_not plain]
  rfl

theorem decodeAccept_web :
    Web.DesktopControl.decodeFileAccept bytes =
      (decodeAccept bytes).map (fun transferId => (transferId.toNat : Int)) := by
  unfold Web.DesktopControl.decodeFileAccept decodeAccept
  split_ifs <;> rfl

def cancelWeb (cancel : UInt32 × Option DowngradeReason) : Web.DesktopControl.FileCancel :=
  ⟨cancel.1.toNat, cancel.2.map DowngradeReason.web⟩

def progressWeb (progress : UInt32 × UInt64) : Web.DesktopControl.FileProgress :=
  ⟨progress.1.toNat, progress.2.toNat⟩

theorem decodeCancel_web :
    Web.DesktopControl.decodeFileCancel bytes = (decodeCancel bytes).map cancelWeb := by
  unfold Web.DesktopControl.decodeFileCancel decodeCancel
  rw [Web.DesktopControl.getUint8, downgradeReason_byte]
  split_ifs <;> rfl

theorem decodeProgress_isSome :
    (Web.DesktopControl.decodeFileProgress bytes).isSome = (decodeProgress bytes).isSome := by
  unfold Web.DesktopControl.decodeFileProgress decodeProgress
  split_ifs <;> rfl

theorem decodeProgress_web_of_lt {progress : UInt32 × UInt64}
    (decoded : decodeProgress bytes = some progress) (small : progress.2.toNat < 2 ^ 53) :
    Web.DesktopControl.decodeFileProgress bytes = some (progressWeb progress) := by
  unfold decodeProgress at decoded
  split_ifs at decoded with short
  cases decoded
  rw [Web.DesktopControl.decodeFileProgress, if_neg short, readU64LE_of_lt (by omega) small]
  rfl

end FileTransfer

end Decoders

-- The same message handed to the two encoders.
section Encoders

open Web.DesktopControl (zeros)

theorem encodeEnvelope_web (domain : ControlDomain) (kind : UInt16) (generation : UInt32)
    (payload : List UInt8) :
    Web.DesktopControl.encodeEnvelope domain.toU8.toNat kind.toNat generation.toNat payload =
      encodeEnvelope domain kind generation payload := by
  have most : (payload.length : Int) > Web.DesktopControl.controlMaxPayload ↔
      payload.length > controlMaxPayload := by
    rw [Web.DesktopControl.controlMaxPayload, controlMaxPayload]
    norm_cast
  unfold Web.DesktopControl.encodeEnvelope encodeEnvelope
  simp only [most]
  split_ifs with long
  · rfl
  have limit : controlMaxPayload = 262144 := rfl
  have size : leU32 (UInt32.ofNat payload.length) = LittleEndian.bytes 4 payload.length := by
    rw [leU32, UInt32.toNat_ofNat_of_lt' (by rw [UInt32.size]; omega)]
  rw [zeros, ← List.nil_append (List.replicate _ 0), bitAnd_byte, bitAnd_u16,
    shiftRightUnsigned_u32, show Web.DesktopControl.controlVersion = ((1 : Nat) : Int) from rfl,
    setUint_next [] 1 1 _ (by rfl), setUint_next _ 1 domain.toU8.toNat _ (by simp),
    setUint_next _ 2 kind.toNat _ (by simp), setUint_next _ 4 generation.toNat _ (by simp),
    setUint_next _ 4 payload.length _ (by simp),
    LittleEndian.overwrite_zeros _ _ _ _ (by simp [Web.DesktopControl.controlHeaderLen]), size]
  simp [leU16, leU32, LittleEndian.bytes, Web.DesktopControl.controlHeaderLen, controlVersion]
  omega

theorem encodeModeRequest_web (req : ModeRequest) :
    Web.DesktopControl.encodeModeRequest req.web = encodeModeRequest req := by
  unfold Web.DesktopControl.encodeModeRequest
  simp only [ModeRequest.web, bitAnd_u16, shiftRightUnsigned_u32]
  rw [zeros, ← List.nil_append (List.replicate _ 0), setUint_next [] 2 req.outputId.toNat _ (by rfl),
    setUint_next _ 2 req.width.toNat _ (by simp), setUint_next _ 2 req.height.toNat _ (by simp),
    setUint_next _ 4 req.refreshMhz.toNat _ (by simp)]
  simp [encodeModeRequest, leU16, leU32, Web.DesktopControl.modeRequestLen]

theorem encodeModeResult_web (res : ModeResult) :
    Web.DesktopControl.encodeModeResult res.web = encodeModeResult res := by
  unfold Web.DesktopControl.encodeModeResult
  simp only [ModeResult.web, bitAnd_u16, shiftRightUnsigned_u32, transitionStatusCodes_web,
    reasonCode_web]
  rw [zeros, ← List.nil_append (List.replicate _ 0), setUint_next [] 2 res.outputId.toNat _ (by rfl),
    setUint_next _ 2 res.width.toNat _ (by simp), setUint_next _ 2 res.height.toNat _ (by simp),
    setUint_next _ 4 res.refreshMhz.toNat _ (by simp),
    setUint_next _ 1 res.status.toU8.toNat _ (by simp),
    setUint_next _ 1 (reasonByte res.reason).toNat _ (by simp)]
  simp [encodeModeResult, leU16, leU32, LittleEndian.bytes, Web.DesktopControl.modeResultLen]

theorem boolean_byte (flag : Bool) : (if flag then 1 else 0 : Int) = flag.toUInt8.toNat := by
  cases flag <;> rfl

theorem Privacy.encodeRequest_web (req : PrivacyRequest) :
    Web.DesktopControl.encodePrivacyRequest req.web = encodeRequest req := by
  rw [Web.DesktopControl.encodePrivacyRequest, boolean_byte]
  simp only [PrivacyRequest.web, bitAnd_byte]
  exact uint8Array_bytes (encodeRequest req)

theorem Privacy.encodeState_web (state : PrivacyState) :
    Web.DesktopControl.encodePrivacyState state.web = encodeState state := by
  rw [Web.DesktopControl.encodePrivacyState, boolean_byte]
  simp only [PrivacyState.web, bitAnd_byte, transitionStatusCodes_web, reasonCode_web]
  exact uint8Array_bytes (encodeState state)

theorem Cursor.encodeAuthority_web (owner : CursorOwner) :
    Web.DesktopControl.encodeCursorAuthority owner.web = encodeAuthority owner := by
  cases owner <;> rfl

theorem ClipboardKinds.encodeOffer_web (kinds : UInt8) :
    Web.DesktopControl.encodeClipboardOffer kinds.toNat = encodeOffer kinds := by
  rw [Web.DesktopControl.encodeClipboardOffer, bitAnd_clipAll]
  exact uint8Array_bytes (encodeOffer kinds)

theorem ClipboardKinds.encodeRequest_web (kind : UInt8) :
    Web.DesktopControl.encodeClipboardRequest kind.toNat = encodeRequest kind := by
  rw [Web.DesktopControl.encodeClipboardRequest, bitAnd_byte]
  exact uint8Array_bytes (encodeRequest kind)

theorem FileTransfer.encodeOffer_web (offer : FileOffer) :
    Web.DesktopControl.encodeFileOffer offer.web = encodeOffer offer := by
  have most : ((Utf8.encode offer.name).length : Int) > Web.DesktopControl.ftMaxNameLen ↔
      (Utf8.encode offer.name).length > ftMaxNameLen := by
    rw [Web.DesktopControl.ftMaxNameLen, ftMaxNameLen]
    norm_cast
  unfold Web.DesktopControl.encodeFileOffer encodeOffer
  simp only [FileOffer.web, Web.DesktopControl.textEncode, Utf16.decode_encode, most,
    shiftRightUnsigned_u32]
  split_ifs with long
  · rfl
  have limit : ftMaxNameLen = 1024 := rfl
  have size : leU16 (UInt16.ofNat (Utf8.encode offer.name).length) =
      LittleEndian.bytes 2 (Utf8.encode offer.name).length := by
    rw [leU16, UInt16.toNat_ofNat_of_lt' (by rw [UInt16.size]; omega)]
  rw [zeros, ← List.nil_append (List.replicate _ 0),
    setUint_next [] 4 offer.transferId.toNat _ (by rfl),
    writeU64LE_next _ offer.totalSize _ (by simp),
    setUint_next _ 2 (Utf8.encode offer.name).length _ (by simp),
    LittleEndian.overwrite_zeros _ _ _ _ (by simp [Web.DesktopControl.ftOfferHeaderLen]), size]
  simp [leU32, Web.DesktopControl.ftOfferHeaderLen]
  omega

theorem FileTransfer.encodeAccept_web (transferId : UInt32) :
    Web.DesktopControl.encodeFileAccept transferId.toNat = encodeAccept transferId := by
  rw [Web.DesktopControl.encodeFileAccept, shiftRightUnsigned_u32, zeros,
    ← List.nil_append (List.replicate _ 0), setUint_next [] 4 transferId.toNat _ (by rfl)]
  simp [encodeAccept, leU32]

theorem FileTransfer.encodeCancel_web (transferId : UInt32) (reason : Option DowngradeReason) :
    Web.DesktopControl.encodeFileCancel transferId.toNat (reason.map DowngradeReason.web) =
      encodeCancel transferId reason := by
  unfold Web.DesktopControl.encodeFileCancel
  dsimp only
  rw [shiftRightUnsigned_u32, reasonCode_web, zeros, ← List.nil_append (List.replicate _ 0),
    setUint_next [] 4 transferId.toNat _ (by rfl),
    setUint_next _ 1 (reasonByte reason).toNat _ (by simp)]
  simp [encodeCancel, leU32, LittleEndian.bytes]

theorem FileTransfer.encodeProgress_web (transferId : UInt32) (bytesDone : UInt64) :
    Web.DesktopControl.encodeFileProgress transferId.toNat bytesDone.toNat =
      encodeProgress transferId bytesDone := by
  unfold Web.DesktopControl.encodeFileProgress
  dsimp only
  rw [shiftRightUnsigned_u32, zeros, ← List.nil_append (List.replicate _ 0),
    setUint_next [] 4 transferId.toNat _ (by rfl), writeU64LE_next _ bytesDone _ (by simp)]
  simp [encodeProgress, leU32]

end Encoders

-- What the browser accepts, and what it reads.
structure DecodersAgree : Prop where
  envelope : ∀ bytes,
    Web.DesktopControl.decodeEnvelope bytes = (decodeEnvelope bytes).map ControlEnvelope.web
  modeRequest : ∀ bytes,
    Web.DesktopControl.decodeModeRequest bytes = (decodeModeRequest bytes).map ModeRequest.web
  modeResult : ∀ bytes,
    Web.DesktopControl.decodeModeResult bytes = (decodeModeResult bytes).map ModeResult.web
  privacyRequest : ∀ bytes, Web.DesktopControl.decodePrivacyRequest bytes =
    (Privacy.decodeRequest bytes).map Privacy.PrivacyRequest.web
  privacyState : ∀ bytes, Web.DesktopControl.decodePrivacyState bytes =
    (Privacy.decodeState bytes).map Privacy.PrivacyState.web
  cursorAuthority : ∀ bytes, Web.DesktopControl.decodeCursorAuthority bytes =
    (Cursor.decodeAuthority bytes).map Cursor.CursorOwner.web
  clipboardOffer : ∀ bytes, Web.DesktopControl.decodeClipboardOffer bytes =
    (ClipboardKinds.decodeOffer bytes).map (fun kinds => (kinds.toNat : Int))
  clipboardRequest : ∀ bytes, Web.DesktopControl.decodeClipboardRequest bytes =
    (ClipboardKinds.decodeRequest bytes).map (fun kind => (kind.toNat : Int))
  fileOfferAccepted : ∀ bytes, (Web.DesktopControl.decodeFileOffer bytes).isSome =
    (FileTransfer.decodeOffer bytes).isSome
  fileOffer : ∀ bytes offer, FileTransfer.decodeOffer bytes = some offer →
    offer.totalSize.toNat < 2 ^ 53 → ¬offer.BeginsWithMark →
      Web.DesktopControl.decodeFileOffer bytes = some offer.web
  fileAccept : ∀ bytes, Web.DesktopControl.decodeFileAccept bytes =
    (FileTransfer.decodeAccept bytes).map (fun transferId => (transferId.toNat : Int))
  fileCancel : ∀ bytes, Web.DesktopControl.decodeFileCancel bytes =
    (FileTransfer.decodeCancel bytes).map FileTransfer.cancelWeb
  fileProgressAccepted : ∀ bytes, (Web.DesktopControl.decodeFileProgress bytes).isSome =
    (FileTransfer.decodeProgress bytes).isSome
  fileProgress : ∀ bytes progress, FileTransfer.decodeProgress bytes = some progress →
    progress.2.toNat < 2 ^ 53 →
      Web.DesktopControl.decodeFileProgress bytes = some (FileTransfer.progressWeb progress)

structure EncodersAgree : Prop where
  envelope : ∀ (domain : ControlDomain) (kind : UInt16) (generation : UInt32) payload,
    Web.DesktopControl.encodeEnvelope domain.toU8.toNat kind.toNat generation.toNat payload =
      encodeEnvelope domain kind generation payload
  modeRequest : ∀ req : ModeRequest,
    Web.DesktopControl.encodeModeRequest req.web = encodeModeRequest req
  modeResult : ∀ res : ModeResult,
    Web.DesktopControl.encodeModeResult res.web = encodeModeResult res
  privacyRequest : ∀ req : Privacy.PrivacyRequest,
    Web.DesktopControl.encodePrivacyRequest req.web = Privacy.encodeRequest req
  privacyState : ∀ state : Privacy.PrivacyState,
    Web.DesktopControl.encodePrivacyState state.web = Privacy.encodeState state
  cursorAuthority : ∀ owner : Cursor.CursorOwner,
    Web.DesktopControl.encodeCursorAuthority owner.web = Cursor.encodeAuthority owner
  clipboardOffer : ∀ kinds : UInt8,
    Web.DesktopControl.encodeClipboardOffer kinds.toNat = ClipboardKinds.encodeOffer kinds
  clipboardRequest : ∀ kind : UInt8,
    Web.DesktopControl.encodeClipboardRequest kind.toNat = ClipboardKinds.encodeRequest kind
  fileOffer : ∀ offer : FileTransfer.FileOffer,
    Web.DesktopControl.encodeFileOffer offer.web = FileTransfer.encodeOffer offer
  fileAccept : ∀ transferId : UInt32,
    Web.DesktopControl.encodeFileAccept transferId.toNat = FileTransfer.encodeAccept transferId
  fileCancel : ∀ (transferId : UInt32) (reason : Option DowngradeReason),
    Web.DesktopControl.encodeFileCancel transferId.toNat (reason.map DowngradeReason.web) =
      FileTransfer.encodeCancel transferId reason
  fileProgress : ∀ (transferId : UInt32) (bytesDone : UInt64),
    Web.DesktopControl.encodeFileProgress transferId.toNat bytesDone.toNat =
      FileTransfer.encodeProgress transferId bytesDone

-- Both decoders on what an encoder wrote, with any bytes behind it.
structure MessagesComeBack : Prop where
  envelope : ∀ domain kind generation payload b rest,
    encodeEnvelope domain kind generation payload = some b →
      let envelope : ControlEnvelope := ⟨domain.toU8, kind, generation, payload⟩
      decodeEnvelope (b ++ rest) = some envelope ∧ envelope.typedDomain = some domain ∧
        Web.DesktopControl.decodeEnvelope (b ++ rest) = some envelope.web
  modeRequest : ∀ req rest, decodeModeRequest (encodeModeRequest req ++ rest) = some req ∧
    Web.DesktopControl.decodeModeRequest (encodeModeRequest req ++ rest) = some req.web
  modeResult : ∀ res rest, Obtainable res.reason →
    decodeModeResult (encodeModeResult res ++ rest) = some res ∧
      Web.DesktopControl.decodeModeResult (encodeModeResult res ++ rest) = some res.web
  privacyRequest : ∀ (req : Privacy.PrivacyRequest) rest,
    req.protections &&& ~~~ Privacy.protectAll = 0 →
      Privacy.decodeRequest (Privacy.encodeRequest req ++ rest) = some req ∧
        Web.DesktopControl.decodePrivacyRequest (Privacy.encodeRequest req ++ rest) = some req.web
  privacyState : ∀ (state : Privacy.PrivacyState) rest, Obtainable state.reason →
    Privacy.decodeState (Privacy.encodeState state ++ rest) = some state ∧
      Web.DesktopControl.decodePrivacyState (Privacy.encodeState state ++ rest) = some state.web
  cursorAuthority : ∀ (owner : Cursor.CursorOwner) rest,
    Cursor.decodeAuthority (Cursor.encodeAuthority owner ++ rest) = some owner ∧
      Web.DesktopControl.decodeCursorAuthority (Cursor.encodeAuthority owner ++ rest) =
        some owner.web
  clipboardOffer : ∀ (kinds : UInt8) rest, kinds &&& ~~~ ClipboardKinds.clipAll = 0 →
    ClipboardKinds.decodeOffer (ClipboardKinds.encodeOffer kinds ++ rest) = some kinds ∧
      Web.DesktopControl.decodeClipboardOffer (ClipboardKinds.encodeOffer kinds ++ rest) =
        some (kinds.toNat : Int)
  clipboardRequest : ∀ (kind : UInt8) rest, kind &&& ~~~ ClipboardKinds.clipAll = 0 →
    ClipboardKinds.countOnes kind = 1 →
      ClipboardKinds.decodeRequest (ClipboardKinds.encodeRequest kind ++ rest) = some kind ∧
        Web.DesktopControl.decodeClipboardRequest (ClipboardKinds.encodeRequest kind ++ rest) =
          some (kind.toNat : Int)
  fileOffer : ∀ (offer : FileTransfer.FileOffer) b rest, FileTransfer.encodeOffer offer = some b →
    FileTransfer.decodeOffer (b ++ rest) = some offer ∧
      (offer.totalSize.toNat < 2 ^ 53 → ¬offer.BeginsWithMark →
        Web.DesktopControl.decodeFileOffer (b ++ rest) = some offer.web)
  fileAccept : ∀ (transferId : UInt32) rest,
    FileTransfer.decodeAccept (FileTransfer.encodeAccept transferId ++ rest) = some transferId ∧
      Web.DesktopControl.decodeFileAccept (FileTransfer.encodeAccept transferId ++ rest) =
        some (transferId.toNat : Int)
  fileCancel : ∀ (transferId : UInt32) reason rest, Obtainable reason →
    FileTransfer.decodeCancel (FileTransfer.encodeCancel transferId reason ++ rest) =
      some (transferId, reason) ∧
        Web.DesktopControl.decodeFileCancel (FileTransfer.encodeCancel transferId reason ++ rest) =
          some (FileTransfer.cancelWeb (transferId, reason))
  fileProgress : ∀ (transferId : UInt32) (bytesDone : UInt64) rest,
    FileTransfer.decodeProgress (FileTransfer.encodeProgress transferId bytesDone ++ rest) =
      some (transferId, bytesDone) ∧ (bytesDone.toNat < 2 ^ 53 →
        Web.DesktopControl.decodeFileProgress
          (FileTransfer.encodeProgress transferId bytesDone ++ rest) =
            some (FileTransfer.progressWeb (transferId, bytesDone)))

theorem decodersAgree : DecodersAgree where
  envelope := decodeEnvelope_web
  modeRequest := decodeModeRequest_web
  modeResult := decodeModeResult_web
  privacyRequest := Privacy.decodeRequest_web
  privacyState := Privacy.decodeState_web
  cursorAuthority := Cursor.decodeAuthority_web
  clipboardOffer := ClipboardKinds.decodeOffer_web
  clipboardRequest := ClipboardKinds.decodeRequest_web
  fileOfferAccepted bytes := by rw [FileTransfer.decodeOffer_web, Option.isSome_map]
  fileOffer bytes offer := FileTransfer.decodeOffer_web_of_lt bytes
  fileAccept := FileTransfer.decodeAccept_web
  fileCancel := FileTransfer.decodeCancel_web
  fileProgressAccepted := FileTransfer.decodeProgress_isSome
  fileProgress bytes progress := FileTransfer.decodeProgress_web_of_lt bytes

theorem encodersAgree : EncodersAgree where
  envelope := encodeEnvelope_web
  modeRequest := encodeModeRequest_web
  modeResult := encodeModeResult_web
  privacyRequest := Privacy.encodeRequest_web
  privacyState := Privacy.encodeState_web
  cursorAuthority := Cursor.encodeAuthority_web
  clipboardOffer := ClipboardKinds.encodeOffer_web
  clipboardRequest := ClipboardKinds.encodeRequest_web
  fileOffer := FileTransfer.encodeOffer_web
  fileAccept := FileTransfer.encodeAccept_web
  fileCancel := FileTransfer.encodeCancel_web
  fileProgress := FileTransfer.encodeProgress_web

-- What the native decoder reads back, the browser reads back too.
theorem both_read {M W : Type} {decode : List UInt8 → Option M} {webDecode : List UInt8 → Option W}
    {web : M → W} (agree : ∀ bytes, webDecode bytes = (decode bytes).map web) {bytes : List UInt8}
    {message : M} (read : decode bytes = some message) :
    decode bytes = some message ∧ webDecode bytes = some (web message) := by
  refine ⟨read, ?_⟩
  rw [agree, read, Option.map_some]

theorem messagesComeBack : MessagesComeBack where
  envelope domain kind generation payload b rest encoded := by
    obtain ⟨native, browser⟩ :=
      both_read decodeEnvelope_web (decodeEnvelope_encodeEnvelope rest encoded)
    exact ⟨native, ControlDomain.fromU8_toU8 domain, browser⟩
  modeRequest req rest :=
    both_read decodeModeRequest_web (decodeModeRequest_encodeModeRequest rest req)
  modeResult res rest obtainable :=
    both_read decodeModeResult_web (decodeModeResult_encodeModeResult rest res obtainable)
  privacyRequest req rest known :=
    both_read Privacy.decodeRequest_web (Privacy.decodeRequest_encodeRequest rest req known)
  privacyState state rest obtainable :=
    both_read Privacy.decodeState_web (Privacy.decodeState_encodeState rest state obtainable)
  cursorAuthority owner rest :=
    both_read Cursor.decodeAuthority_web (Cursor.decodeAuthority_encodeAuthority rest owner)
  clipboardOffer kinds rest known := by
    have kept := forall_byte (P := fun kinds => kinds &&& ~~~ ClipboardKinds.clipAll = 0 →
      kinds &&& ClipboardKinds.clipAll = kinds) (by decide +kernel) kinds known
    have read := ClipboardKinds.decodeOffer_encodeOffer rest kinds
    rw [kept] at read
    exact both_read ClipboardKinds.decodeOffer_web read
  clipboardRequest kind rest known one :=
    both_read ClipboardKinds.decodeRequest_web
      (ClipboardKinds.decodeRequest_encodeRequest rest kind known one)
  fileOffer offer b rest encoded := by
    have read := FileTransfer.decodeOffer_encodeOffer rest encoded
    exact ⟨read, FileTransfer.decodeOffer_web_of_lt (b ++ rest) read⟩
  fileAccept transferId rest :=
    both_read FileTransfer.decodeAccept_web (FileTransfer.decodeAccept_encodeAccept rest transferId)
  fileCancel transferId reason rest obtainable :=
    both_read FileTransfer.decodeCancel_web
      (FileTransfer.decodeCancel_encodeCancel rest transferId obtainable)
  fileProgress transferId bytesDone rest := by
    have read := FileTransfer.decodeProgress_encodeProgress rest transferId bytesDone
    exact ⟨read, FileTransfer.decodeProgress_web_of_lt _ read⟩

/-- The two desktop control codecs agree. -/
theorem desktop_control_agrees : DecodersAgree ∧ EncodersAgree ∧ MessagesComeBack :=
  ⟨decodersAgree, encodersAgree, messagesComeBack⟩

/-- A name that starts with a byte order mark loses it in the browser; encoders take bits that the
decoders refuse or mask. -/
theorem mark_and_reserved_bits_differ :
    (∃ bytes offer, FileTransfer.decodeOffer bytes = some offer ∧
      offer.totalSize.toNat < 2 ^ 53 ∧
        Web.DesktopControl.decodeFileOffer bytes ≠ some offer.web) ∧
    Privacy.decodeRequest (Privacy.encodeRequest ⟨true, 4⟩) = none ∧
    ClipboardKinds.decodeOffer (ClipboardKinds.encodeOffer 8) = some 0 ∧
    ClipboardKinds.decodeRequest (ClipboardKinds.encodeRequest 3) = none := by
  refine ⟨⟨[1, 0, 0, 0, 5, 0, 0, 0, 0, 0, 0, 0, 4, 0, 0xEF, 0xBB, 0xBF, 0x61],
    ⟨1, 5, ['\uFEFF', 'a']⟩, ?_, by decide, ?_⟩, by decide, by decide, by decide⟩
  · decide +kernel
  · decide +kernel

end DesktopControl

end BetterParsec
