import BetterParsec.Library.Utf8
import BetterParsec.Wire.Chunks

set_option autoImplicit false
set_option linter.all false

/-!
# Desktop control

The control envelope of `desktop_control.rs` and the payloads of its domains:
display modes, privacy, cursor authority, clipboard kinds and file transfers.
-/

namespace BetterParsec

namespace DesktopControl

def controlVersion : UInt8 := 1

def controlHeaderLen : Nat := 12

def controlMaxPayload : Nat := 262144

inductive ControlDomain where
  | cursor
  | display
  | privacy
  | clipboard
  | fileTransfer
  deriving DecidableEq

def ControlDomain.toU8 : ControlDomain → UInt8
  | .cursor => 1
  | .display => 2
  | .privacy => 3
  | .clipboard => 4
  | .fileTransfer => 5

def ControlDomain.fromU8 (code : UInt8) : Option ControlDomain :=
  if code = 1 then some .cursor
  else if code = 2 then some .display
  else if code = 3 then some .privacy
  else if code = 4 then some .clipboard
  else if code = 5 then some .fileTransfer
  else none

inductive DowngradeReason where
  | unsupported
  | capabilityMismatch
  | resourceBusy
  | staleGeneration
  | policyDenied
  | transientError
  | versionMismatch
  | unknown (raw : UInt8)
  deriving DecidableEq

def DowngradeReason.toU8 : DowngradeReason → UInt8
  | .unsupported => 1
  | .capabilityMismatch => 2
  | .resourceBusy => 3
  | .staleGeneration => 4
  | .policyDenied => 5
  | .transientError => 6
  | .versionMismatch => 7
  | .unknown raw => raw

def DowngradeReason.fromU8 (code : UInt8) : Option DowngradeReason :=
  if code = 0 then none
  else if code = 1 then some .unsupported
  else if code = 2 then some .capabilityMismatch
  else if code = 3 then some .resourceBusy
  else if code = 4 then some .staleGeneration
  else if code = 5 then some .policyDenied
  else if code = 6 then some .transientError
  else if code = 7 then some .versionMismatch
  else some (.unknown code)

-- `reason.map_or(0, DowngradeReason::to_u8)`.
def reasonByte (reason : Option DowngradeReason) : UInt8 := reason.elim 0 DowngradeReason.toU8

structure ControlEnvelope where
  domain : UInt8
  kind : UInt16
  generation : UInt32
  payload : List UInt8
  deriving DecidableEq

def ControlEnvelope.typedDomain (envelope : ControlEnvelope) : Option ControlDomain :=
  ControlDomain.fromU8 envelope.domain

def encodeEnvelope (domain : ControlDomain) (kind : UInt16) (generation : UInt32)
    (payload : List UInt8) : Option (List UInt8) :=
  if payload.length > controlMaxPayload then none
  else some ([controlVersion] ++ [domain.toU8] ++ leU16 kind ++ leU32 generation ++
    leU32 (UInt32.ofNat payload.length) ++ payload)

def decodeEnvelope (bytes : List UInt8) : Option ControlEnvelope :=
  if bytes.length < controlHeaderLen then none
  else if bytes.getD 0 0 ≠ controlVersion then none
  else
    let payloadLen := (u32At bytes 8).toNat
    if payloadLen > controlMaxPayload then none
    else if bytes.length < controlHeaderLen + payloadLen then none
    else some
      { domain := bytes.getD 1 0
        kind := u16At bytes 2
        generation := u32At bytes 4
        payload := LittleEndian.slice bytes controlHeaderLen payloadLen }

inductive TransitionStatus where
  | applied
  | downgraded
  | rejected
  deriving DecidableEq

def TransitionStatus.toU8 : TransitionStatus → UInt8
  | .applied => 0
  | .downgraded => 1
  | .rejected => 2

def TransitionStatus.fromU8 (code : UInt8) : Option TransitionStatus :=
  if code = 0 then some .applied
  else if code = 1 then some .downgraded
  else if code = 2 then some .rejected
  else none

def modeRequestLen : Nat := 10

def modeResultLen : Nat := 12

structure ModeRequest where
  outputId : UInt16
  width : UInt16
  height : UInt16
  refreshMhz : UInt32
  deriving DecidableEq

structure ModeResult where
  outputId : UInt16
  width : UInt16
  height : UInt16
  refreshMhz : UInt32
  status : TransitionStatus
  reason : Option DowngradeReason
  deriving DecidableEq

-- Fixed arrays are written here from the front: the fields cover them without a gap.
def encodeModeRequest (req : ModeRequest) : List UInt8 :=
  leU16 req.outputId ++ leU16 req.width ++ leU16 req.height ++ leU32 req.refreshMhz

def decodeModeRequest (bytes : List UInt8) : Option ModeRequest :=
  if bytes.length < modeRequestLen then none
  else some
    { outputId := u16At bytes 0
      width := u16At bytes 2
      height := u16At bytes 4
      refreshMhz := u32At bytes 6 }

def encodeModeResult (res : ModeResult) : List UInt8 :=
  leU16 res.outputId ++ leU16 res.width ++ leU16 res.height ++ leU32 res.refreshMhz ++
    [res.status.toU8] ++ [reasonByte res.reason]

def decodeModeResult (bytes : List UInt8) : Option ModeResult :=
  if bytes.length < modeResultLen then none
  else do
    let status ← TransitionStatus.fromU8 (bytes.getD 10 0)
    return {
      outputId := u16At bytes 0
      width := u16At bytes 2
      height := u16At bytes 4
      refreshMhz := u32At bytes 6
      status := status
      reason := DowngradeReason.fromU8 (bytes.getD 11 0) }

namespace Privacy

def protectBlankDisplay : UInt8 := 0x01

def protectBlockLocalInput : UInt8 := 0x02

def protectAll : UInt8 := protectBlankDisplay ||| protectBlockLocalInput

def privacyRequestLen : Nat := 2

def privacyStateLen : Nat := 4

structure PrivacyRequest where
  enable : Bool
  protections : UInt8
  deriving DecidableEq

structure PrivacyState where
  active : Bool
  protectionsEffective : UInt8
  status : TransitionStatus
  reason : Option DowngradeReason
  deriving DecidableEq

def encodeRequest (req : PrivacyRequest) : List UInt8 := [req.enable.toUInt8, req.protections]

def decodeRequest (bytes : List UInt8) : Option PrivacyRequest :=
  if bytes.length < privacyRequestLen then none
  else
    let protections := bytes.getD 1 0
    if protections &&& ~~~ protectAll ≠ 0 then none
    else some { enable := bytes.getD 0 0 ≠ 0, protections := protections }

def encodeState (state : PrivacyState) : List UInt8 :=
  [state.active.toUInt8, state.protectionsEffective, state.status.toU8, reasonByte state.reason]

def decodeState (bytes : List UInt8) : Option PrivacyState :=
  if bytes.length < privacyStateLen then none
  else do
    let status ← TransitionStatus.fromU8 (bytes.getD 2 0)
    return {
      active := bytes.getD 0 0 ≠ 0
      protectionsEffective := bytes.getD 1 0
      status := status
      reason := DowngradeReason.fromU8 (bytes.getD 3 0) }

end Privacy

namespace Cursor

def cursorAuthorityLen : Nat := 1

inductive CursorOwner where
  | host
  | client
  deriving DecidableEq

def CursorOwner.toU8 : CursorOwner → UInt8
  | .host => 0
  | .client => 1

def CursorOwner.fromU8 (code : UInt8) : Option CursorOwner :=
  if code = 0 then some .host else if code = 1 then some .client else none

def encodeAuthority (owner : CursorOwner) : List UInt8 := [owner.toU8]

def decodeAuthority (bytes : List UInt8) : Option CursorOwner :=
  if bytes.length < cursorAuthorityLen then none else CursorOwner.fromU8 (bytes.getD 0 0)

end Cursor

namespace ClipboardKinds

def clipText : UInt8 := 0x01

def clipPng : UInt8 := 0x02

def clipFileList : UInt8 := 0x04

def clipAll : UInt8 := clipText ||| clipPng ||| clipFileList

def clipboardOfferLen : Nat := 1

def clipboardRequestLen : Nat := 1

def countOnes (byte : UInt8) : Nat := (List.range 8).countP (fun place => byte.toNat.testBit place)

def encodeOffer (kinds : UInt8) : List UInt8 := [kinds &&& clipAll]

def decodeOffer (bytes : List UInt8) : Option UInt8 :=
  if bytes.length < clipboardOfferLen then none else some (bytes.getD 0 0 &&& clipAll)

def encodeRequest (kind : UInt8) : List UInt8 := [kind]

def decodeRequest (bytes : List UInt8) : Option UInt8 :=
  if bytes.length < clipboardRequestLen then none
  else
    let kind := bytes.getD 0 0
    if kind &&& ~~~ clipAll ≠ 0 ∨ countOnes kind ≠ 1 then none else some kind

end ClipboardKinds

namespace FileTransfer

def ftOfferHeaderLen : Nat := 14

def ftMaxNameLen : Nat := 1024

def leU64 (value : UInt64) : List UInt8 := LittleEndian.bytes 8 value.toNat

def u64At (buf : List UInt8) (first : Nat) : UInt64 :=
  UInt64.ofNat (LittleEndian.valueAt buf first 8)

structure FileOffer where
  transferId : UInt32
  totalSize : UInt64
  name : List Char
  deriving DecidableEq

def encodeOffer (offer : FileOffer) : Option (List UInt8) :=
  let name := Utf8.encode offer.name
  if name.length > ftMaxNameLen then none
  else some (leU32 offer.transferId ++ leU64 offer.totalSize ++ leU16 (UInt16.ofNat name.length) ++
    name)

def decodeOffer (bytes : List UInt8) : Option FileOffer :=
  if bytes.length < ftOfferHeaderLen then none
  else
    let nameLen := (u16At bytes 12).toNat
    if nameLen > ftMaxNameLen then none
    else if bytes.length < ftOfferHeaderLen + nameLen then none
    else do
      let name ← Utf8.decode (LittleEndian.slice bytes ftOfferHeaderLen nameLen)
      return { transferId := u32At bytes 0, totalSize := u64At bytes 4, name := name }

def encodeAccept (transferId : UInt32) : List UInt8 := leU32 transferId

def decodeAccept (bytes : List UInt8) : Option UInt32 :=
  if bytes.length < 4 then none else some (u32At bytes 0)

def encodeCancel (transferId : UInt32) (reason : Option DowngradeReason) : List UInt8 :=
  leU32 transferId ++ [reasonByte reason]

def decodeCancel (bytes : List UInt8) : Option (UInt32 × Option DowngradeReason) :=
  if bytes.length < 5 then none
  else some (u32At bytes 0, DowngradeReason.fromU8 (bytes.getD 4 0))

def encodeProgress (transferId : UInt32) (bytesDone : UInt64) : List UInt8 :=
  leU32 transferId ++ leU64 bytesDone

def decodeProgress (bytes : List UInt8) : Option (UInt32 × UInt64) :=
  if bytes.length < 12 then none else some (u32At bytes 0, u64At bytes 4)

theorem leU64_split (value : UInt64) :
    leU64 value =
      LittleEndian.bytes 4 value.toNat ++ LittleEndian.bytes 4 (value.toNat / 4294967296) :=
  LittleEndian.bytes_add 4 4 value.toNat

theorem u64At_split (buf : List UInt8) (first : Nat) (inside : first + 8 ≤ buf.length) :
    (u64At buf first).toNat =
      (u32At buf (first + 4)).toNat * 4294967296 + (u32At buf first).toNat := by
  have low := LittleEndian.valueAt_lt buf first 4 (by omega)
  have high := LittleEndian.valueAt_lt buf (first + 4) 4 (by omega)
  have whole := LittleEndian.valueAt_add buf first 4 4 (by omega)
  rw [u64At, u32At, u32At, UInt32.toNat_ofNat_of_lt' low, UInt32.toNat_ofNat_of_lt' high,
    UInt64.toNat_ofNat_of_lt' (LittleEndian.valueAt_lt buf first 8 inside), whole]
  omega

@[simp] theorem length_leU64 (value : UInt64) : (leU64 value).length = 8 :=
  LittleEndian.length_bytes 8 _

@[simp] theorem u64At_leU64 (value : UInt64) (after : List UInt8) :
    u64At (leU64 value ++ after) 0 = value := by
  rw [u64At, leU64, LittleEndian.valueAt_bytes 8 value.toNat after value.toNat_lt,
    UInt64.ofNat_toNat]

@[simp] theorem u64At_append (before after : List UInt8) (first : Nat)
    (place : before.length ≤ first) :
    u64At (before ++ after) first = u64At after (first - before.length) := by
  rw [u64At, u64At, LittleEndian.valueAt_append before after first 8 place]

end FileTransfer

section RoundTrips

variable (rest : List UInt8)

-- The reasons that come from a wire code, the absent one among them.
def Obtainable (reason : Option DowngradeReason) : Prop :=
  ∃ code, DowngradeReason.fromU8 code = reason

theorem fromU8_unknown {code : UInt8} (other : code ∉ ([0, 1, 2, 3, 4, 5, 6, 7] : List UInt8)) :
    DowngradeReason.fromU8 code = some (.unknown code) := by
  simp only [List.mem_cons, List.not_mem_nil, or_false, not_or] at other
  obtain ⟨h₀, h₁, h₂, h₃, h₄, h₅, h₆, h₇⟩ := other
  rw [DowngradeReason.fromU8, if_neg h₀, if_neg h₁, if_neg h₂, if_neg h₃, if_neg h₄, if_neg h₅,
    if_neg h₆, if_neg h₇]

theorem reasonByte_fromU8 (code : UInt8) : reasonByte (DowngradeReason.fromU8 code) = code := by
  by_cases known : code ∈ ([0, 1, 2, 3, 4, 5, 6, 7] : List UInt8)
  · have all : ∀ code ∈ ([0, 1, 2, 3, 4, 5, 6, 7] : List UInt8),
        reasonByte (DowngradeReason.fromU8 code) = code := by
      simp only [List.forall_mem_cons]
      exact ⟨rfl, rfl, rfl, rfl, rfl, rfl, rfl, rfl, List.forall_mem_nil _⟩
    exact all code known
  · rw [fromU8_unknown known]
    rfl

theorem fromU8_reasonByte {reason : Option DowngradeReason} (obtainable : Obtainable reason) :
    DowngradeReason.fromU8 (reasonByte reason) = reason := by
  obtain ⟨code, rfl⟩ := obtainable
  rw [reasonByte_fromU8]

@[simp] theorem TransitionStatus.fromU8_toU8 (status : TransitionStatus) :
    TransitionStatus.fromU8 status.toU8 = some status := by
  cases status <;> rfl

@[simp] theorem Cursor.CursorOwner.fromU8_toU8 (owner : CursorOwner) :
    CursorOwner.fromU8 owner.toU8 = some owner := by
  cases owner <;> rfl

@[simp] theorem ControlDomain.fromU8_toU8 (domain : ControlDomain) :
    ControlDomain.fromU8 domain.toU8 = some domain := by
  cases domain <;> rfl

@[simp] theorem toUInt8_eq_zero (flag : Bool) : decide (flag.toUInt8 = 0) = !flag := by
  cases flag <;> rfl

theorem decodeEnvelope_encodeEnvelope {domain : ControlDomain} {kind : UInt16}
    {generation : UInt32} {payload b : List UInt8}
    (encoded : encodeEnvelope domain kind generation payload = some b) :
    decodeEnvelope (b ++ rest) = some ⟨domain.toU8, kind, generation, payload⟩ := by
  rw [encodeEnvelope] at encoded
  split_ifs at encoded with long
  rw [Option.some.injEq] at encoded
  subst encoded
  have limit : controlMaxPayload = 262144 := rfl
  have size : (UInt32.ofNat payload.length).toNat = payload.length :=
    UInt32.toNat_ofNat_of_lt' (by rw [UInt32.size]; omega)
  have field : LittleEndian.slice ([controlVersion] ++ [domain.toU8] ++ leU16 kind ++
      leU32 generation ++ leU32 (UInt32.ofNat payload.length) ++ payload ++ rest)
        controlHeaderLen payload.length = payload := by
    rw [LittleEndian.slice, List.append_assoc, List.drop_left' (by simp [controlHeaderLen]),
      List.take_left' rfl]
  have read : u32At ([controlVersion] ++ [domain.toU8] ++ leU16 kind ++ leU32 generation ++
      leU32 (UInt32.ofNat payload.length) ++ payload ++ rest) 8 =
        UInt32.ofNat payload.length := by simp
  unfold decodeEnvelope
  rw [if_neg (by simp [controlHeaderLen]; omega), if_neg (by simp)]
  dsimp only
  rw [read, size, if_neg long, if_neg (by simp [controlHeaderLen]; omega), field]
  simp

theorem decodeModeRequest_encodeModeRequest (req : ModeRequest) :
    decodeModeRequest (encodeModeRequest req ++ rest) = some req := by
  simp [decodeModeRequest, encodeModeRequest, modeRequestLen]
  omega

theorem decodeModeResult_encodeModeResult (res : ModeResult) (obtainable : Obtainable res.reason) :
    decodeModeResult (encodeModeResult res ++ rest) = some res := by
  have reason := fromU8_reasonByte obtainable
  simp [decodeModeResult, encodeModeResult, modeResultLen, List.getElem?_append_right, reason]
  omega

theorem Privacy.decodeRequest_encodeRequest (req : PrivacyRequest)
    (known : req.protections &&& ~~~ protectAll = 0) :
    decodeRequest (encodeRequest req ++ rest) = some req := by
  simp [decodeRequest, encodeRequest, privacyRequestLen, known]

theorem Privacy.decodeState_encodeState (state : PrivacyState)
    (obtainable : Obtainable state.reason) :
    decodeState (encodeState state ++ rest) = some state := by
  have reason := fromU8_reasonByte obtainable
  simp [decodeState, encodeState, privacyStateLen, reason]

theorem Cursor.decodeAuthority_encodeAuthority (owner : CursorOwner) :
    decodeAuthority (encodeAuthority owner ++ rest) = some owner := by
  simp [decodeAuthority, encodeAuthority, cursorAuthorityLen]

theorem ClipboardKinds.decodeOffer_encodeOffer (kinds : UInt8) :
    decodeOffer (encodeOffer kinds ++ rest) = some (kinds &&& clipAll) := by
  simp [decodeOffer, encodeOffer, clipboardOfferLen, UInt8.and_assoc]

theorem ClipboardKinds.decodeRequest_encodeRequest (kind : UInt8)
    (known : kind &&& ~~~ clipAll = 0) (one : countOnes kind = 1) :
    decodeRequest (encodeRequest kind ++ rest) = some kind := by
  simp [decodeRequest, encodeRequest, clipboardRequestLen, known, one]

theorem FileTransfer.decodeOffer_encodeOffer {offer : FileOffer} {b : List UInt8}
    (encoded : encodeOffer offer = some b) : decodeOffer (b ++ rest) = some offer := by
  unfold encodeOffer at encoded
  dsimp only at encoded
  split_ifs at encoded with long
  rw [Option.some.injEq] at encoded
  subst encoded
  have limit : ftMaxNameLen = 1024 := rfl
  have size : (UInt16.ofNat (Utf8.encode offer.name).length).toNat =
      (Utf8.encode offer.name).length :=
    UInt16.toNat_ofNat_of_lt' (by rw [UInt16.size]; omega)
  have field : LittleEndian.slice (leU32 offer.transferId ++ leU64 offer.totalSize ++
      leU16 (UInt16.ofNat (Utf8.encode offer.name).length) ++ Utf8.encode offer.name ++ rest)
        ftOfferHeaderLen (Utf8.encode offer.name).length = Utf8.encode offer.name := by
    rw [LittleEndian.slice, List.append_assoc, List.drop_left' (by simp [ftOfferHeaderLen]),
      List.take_left' rfl]
  have read : u16At (leU32 offer.transferId ++ leU64 offer.totalSize ++
      leU16 (UInt16.ofNat (Utf8.encode offer.name).length) ++ Utf8.encode offer.name ++ rest) 12 =
        UInt16.ofNat (Utf8.encode offer.name).length := by simp
  unfold decodeOffer
  rw [if_neg (by simp [ftOfferHeaderLen]; omega)]
  dsimp only
  rw [read, size, if_neg long, if_neg (by simp [ftOfferHeaderLen]; omega), field,
    Utf8.decode_encode]
  simp

theorem FileTransfer.decodeAccept_encodeAccept (transferId : UInt32) :
    decodeAccept (encodeAccept transferId ++ rest) = some transferId := by
  simp [decodeAccept, encodeAccept]

theorem FileTransfer.decodeCancel_encodeCancel (transferId : UInt32)
    {reason : Option DowngradeReason} (obtainable : Obtainable reason) :
    decodeCancel (encodeCancel transferId reason ++ rest) = some (transferId, reason) := by
  have known := fromU8_reasonByte obtainable
  simp [decodeCancel, encodeCancel, known]
  omega

theorem FileTransfer.decodeProgress_encodeProgress (transferId : UInt32) (bytesDone : UInt64) :
    decodeProgress (encodeProgress transferId bytesDone ++ rest) =
      some (transferId, bytesDone) := by
  simp [decodeProgress, encodeProgress]
  omega

end RoundTrips

end DesktopControl

end BetterParsec
