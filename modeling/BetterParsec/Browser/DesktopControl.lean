import BetterParsec.Library.JsNumber
import BetterParsec.Library.Utf16
import BetterParsec.Wire.DesktopControl

set_option autoImplicit false
set_option linter.all false

/-!
# The desktop control codec of the browser

`desktop_control.ts`, the mirror of `desktop_control.rs`.  Its numbers are
integers here; texts are the code units of JavaScript strings.
-/

namespace BetterParsec

namespace Web

namespace DesktopControl

open JsNumber

def controlVersion : Int := 1

def controlHeaderLen : Nat := 12

def controlMaxPayload : Int := 262144

section Buffers

def getUint8 (bytes : List UInt8) (offset : Nat) : Int := ((bytes.getD offset 0).toNat : Int)

def getUint16 (bytes : List UInt8) (offset : Nat) : Int := ((u16At bytes offset).toNat : Int)

def getUint32 (bytes : List UInt8) (offset : Nat) : Int := ((u32At bytes offset).toNat : Int)

-- `setUint8`, `setUint16` and `setUint32` keep the low bytes of the number.
def setUint (width : Nat) (out : List UInt8) (offset : Nat) (value : Int) : List UInt8 :=
  LittleEndian.overwrite out offset (LittleEndian.bytes width (value % 256 ^ width).toNat)

-- `new Uint8Array(length)`.
def zeros (length : Nat) : List UInt8 := List.replicate length 0

-- `new Uint8Array([...])`.
def uint8Array (values : List Int) : List UInt8 :=
  values.map (fun value => UInt8.ofNat (value % 256).toNat)

def u32Mod : Int := 0x100000000

def writeU64LE (out : List UInt8) (offset : Nat) (value : Int) : List UInt8 :=
  setUint 4 (setUint 4 out offset (value.tmod u32Mod)) (offset + 4) (value / u32Mod)

-- The sum is a double; the product is one exactly.
def readU64LE (bytes : List UInt8) (offset : Nat) : Int :=
  let low := getUint32 bytes offset
  let high := getUint32 bytes (offset + 4)
  nearestDouble (high * u32Mod + low).toNat

end Buffers

section Texts

-- `new TextEncoder().encode`.
def textEncode (text : List UInt16) : List UInt8 := Utf8.encode (Utf16.decode text)

def withoutMark : List Char → List Char
  | [] => []
  | c :: text => if c = '\uFEFF' then text else c :: text

-- `new TextDecoder("utf-8", { fatal: true }).decode`, which drops a leading byte order mark.
def textDecode (bytes : List UInt8) : Option (List UInt16) :=
  (Utf8.decode bytes).map (fun text => Utf16.encode (withoutMark text))

end Texts

structure DowngradeReason where
  name : String
  code : Int
  deriving DecidableEq

def downgradeReasons : List (Int × String) :=
  [(1, "unsupported"), (2, "capability_mismatch"), (3, "resource_busy"), (4, "stale_generation"),
    (5, "policy_denied"), (6, "transient_error"), (7, "version_mismatch")]

def downgradeReason (code : Int) : Option DowngradeReason :=
  if code = 0 then none
  else some ⟨(downgradeReasons.lookup code).getD "unknown", code⟩

-- `reason ? reason.code & 0xff : 0`.
def reasonCode (reason : Option DowngradeReason) : Int :=
  reason.elim 0 (fun reason => bitAnd reason.code 0xff)

structure ControlEnvelope where
  domain : Int
  kind : Int
  generation : Int
  payload : List UInt8
  deriving DecidableEq

def encodeEnvelope (domain kind generation : Int) (payload : List UInt8) :
    Option (List UInt8) :=
  if (payload.length : Int) > controlMaxPayload then none
  else
    let out := zeros (controlHeaderLen + payload.length)
    let out := setUint 1 out 0 controlVersion
    let out := setUint 1 out 1 (bitAnd domain 0xff)
    let out := setUint 2 out 2 (bitAnd kind 0xffff)
    let out := setUint 4 out 4 (shiftRightUnsigned generation 0)
    let out := setUint 4 out 8 payload.length
    some (LittleEndian.overwrite out controlHeaderLen payload)

def decodeEnvelope (bytes : List UInt8) : Option ControlEnvelope :=
  if bytes.length < controlHeaderLen then none
  else if getUint8 bytes 0 ≠ controlVersion then none
  else
    let domain := getUint8 bytes 1
    let kind := getUint16 bytes 2
    let generation := getUint32 bytes 4
    let payloadLen := getUint32 bytes 8
    if payloadLen > controlMaxPayload then none
    else if (bytes.length : Int) < controlHeaderLen + payloadLen then none
    else some
      { domain := domain
        kind := kind
        generation := generation
        payload := LittleEndian.slice bytes controlHeaderLen payloadLen.toNat }

inductive TransitionStatus where
  | applied
  | downgraded
  | rejected
  deriving DecidableEq

def transitionStatusCodes : TransitionStatus → Int
  | .applied => 0
  | .downgraded => 1
  | .rejected => 2

def transitionStatusNames (code : Int) : Option TransitionStatus :=
  if code = 0 then some .applied
  else if code = 1 then some .downgraded
  else if code = 2 then some .rejected
  else none

def modeRequestLen : Nat := 10

def modeResultLen : Nat := 12

structure ModeRequest where
  outputId : Int
  width : Int
  height : Int
  refreshMhz : Int
  deriving DecidableEq

structure ModeResult extends ModeRequest where
  status : TransitionStatus
  reason : Option DowngradeReason
  deriving DecidableEq

def encodeModeRequest (req : ModeRequest) : List UInt8 :=
  let out := zeros modeRequestLen
  let out := setUint 2 out 0 (bitAnd req.outputId 0xffff)
  let out := setUint 2 out 2 (bitAnd req.width 0xffff)
  let out := setUint 2 out 4 (bitAnd req.height 0xffff)
  setUint 4 out 6 (shiftRightUnsigned req.refreshMhz 0)

def decodeModeRequest (bytes : List UInt8) : Option ModeRequest :=
  if bytes.length < modeRequestLen then none
  else some
    { outputId := getUint16 bytes 0
      width := getUint16 bytes 2
      height := getUint16 bytes 4
      refreshMhz := getUint32 bytes 6 }

def encodeModeResult (res : ModeResult) : List UInt8 :=
  let out := zeros modeResultLen
  let out := setUint 2 out 0 (bitAnd res.outputId 0xffff)
  let out := setUint 2 out 2 (bitAnd res.width 0xffff)
  let out := setUint 2 out 4 (bitAnd res.height 0xffff)
  let out := setUint 4 out 6 (shiftRightUnsigned res.refreshMhz 0)
  let out := setUint 1 out 10 (transitionStatusCodes res.status)
  setUint 1 out 11 (reasonCode res.reason)

def decodeModeResult (bytes : List UInt8) : Option ModeResult :=
  if bytes.length < modeResultLen then none
  else do
    let status ← transitionStatusNames (getUint8 bytes 10)
    return {
      outputId := getUint16 bytes 0
      width := getUint16 bytes 2
      height := getUint16 bytes 4
      refreshMhz := getUint32 bytes 6
      status := status
      reason := downgradeReason (getUint8 bytes 11) }

def protectBlankDisplay : Int := 0x01

def protectBlockLocalInput : Int := 0x02

-- `PROTECT_BLANK_DISPLAY | PROTECT_BLOCK_LOCAL_INPUT`.
def protectAll : Int := bitOr protectBlankDisplay protectBlockLocalInput

def privacyRequestLen : Nat := 2

def privacyStateLen : Nat := 4

structure PrivacyRequest where
  enable : Bool
  protections : Int
  deriving DecidableEq

structure PrivacyState where
  active : Bool
  protectionsEffective : Int
  status : TransitionStatus
  reason : Option DowngradeReason
  deriving DecidableEq

def encodePrivacyRequest (req : PrivacyRequest) : List UInt8 :=
  uint8Array [if req.enable then 1 else 0, bitAnd req.protections 0xff]

def decodePrivacyRequest (bytes : List UInt8) : Option PrivacyRequest :=
  if bytes.length < privacyRequestLen then none
  else
    let protections := getUint8 bytes 1
    if bitAnd protections (bitNot protectAll) ≠ 0 then none
    else some { enable := getUint8 bytes 0 ≠ 0, protections := protections }

def encodePrivacyState (state : PrivacyState) : List UInt8 :=
  uint8Array [if state.active then 1 else 0, bitAnd state.protectionsEffective 0xff,
    transitionStatusCodes state.status, reasonCode state.reason]

def decodePrivacyState (bytes : List UInt8) : Option PrivacyState :=
  if bytes.length < privacyStateLen then none
  else do
    let status ← transitionStatusNames (getUint8 bytes 2)
    return {
      active := getUint8 bytes 0 ≠ 0
      protectionsEffective := getUint8 bytes 1
      status := status
      reason := downgradeReason (getUint8 bytes 3) }

def cursorAuthorityLen : Nat := 1

inductive CursorOwner where
  | host
  | client
  deriving DecidableEq

def cursorOwnerCodes : CursorOwner → Int
  | .host => 0
  | .client => 1

def cursorOwnerNames (code : Int) : Option CursorOwner :=
  if code = 0 then some .host else if code = 1 then some .client else none

def encodeCursorAuthority (owner : CursorOwner) : List UInt8 := uint8Array [cursorOwnerCodes owner]

def decodeCursorAuthority (bytes : List UInt8) : Option CursorOwner :=
  if bytes.length < cursorAuthorityLen then none else cursorOwnerNames (getUint8 bytes 0)

def clipText : Int := 0x01

def clipPng : Int := 0x02

def clipFileList : Int := 0x04

def clipAll : Int := bitOr (bitOr clipText clipPng) clipFileList

def encodeClipboardOffer (kinds : Int) : List UInt8 := uint8Array [bitAnd kinds clipAll]

def decodeClipboardOffer (bytes : List UInt8) : Option Int :=
  if bytes.length < 1 then none else some (bitAnd (getUint8 bytes 0) clipAll)

def encodeClipboardRequest (kind : Int) : List UInt8 := uint8Array [bitAnd kind 0xff]

def decodeClipboardRequest (bytes : List UInt8) : Option Int :=
  if bytes.length < 1 then none
  else
    let kind := getUint8 bytes 0
    if bitAnd kind (bitNot clipAll) ≠ 0 ∨ kind = 0 ∨ bitAnd kind (kind - 1) ≠ 0 then none
    else some kind

def ftOfferHeaderLen : Nat := 14

def ftMaxNameLen : Int := 1024

structure FileOffer where
  transferId : Int
  totalSize : Int
  name : List UInt16
  deriving DecidableEq

structure FileCancel where
  transferId : Int
  reason : Option DowngradeReason
  deriving DecidableEq

structure FileProgress where
  transferId : Int
  bytesDone : Int
  deriving DecidableEq

def encodeFileOffer (offer : FileOffer) : Option (List UInt8) :=
  let name := textEncode offer.name
  if (name.length : Int) > ftMaxNameLen then none
  else
    let out := zeros (ftOfferHeaderLen + name.length)
    let out := setUint 4 out 0 (shiftRightUnsigned offer.transferId 0)
    let out := writeU64LE out 4 offer.totalSize
    let out := setUint 2 out 12 name.length
    some (LittleEndian.overwrite out ftOfferHeaderLen name)

def decodeFileOffer (bytes : List UInt8) : Option FileOffer :=
  if bytes.length < ftOfferHeaderLen then none
  else
    let transferId := getUint32 bytes 0
    let totalSize := readU64LE bytes 4
    let nameLen := getUint16 bytes 12
    if nameLen > ftMaxNameLen then none
    else if (bytes.length : Int) < ftOfferHeaderLen + nameLen then none
    else do
      let name ← textDecode (LittleEndian.slice bytes ftOfferHeaderLen nameLen.toNat)
      return { transferId := transferId, totalSize := totalSize, name := name }

def encodeFileAccept (transferId : Int) : List UInt8 :=
  setUint 4 (zeros 4) 0 (shiftRightUnsigned transferId 0)

def decodeFileAccept (bytes : List UInt8) : Option Int :=
  if bytes.length < 4 then none else some (getUint32 bytes 0)

def encodeFileCancel (transferId : Int) (reason : Option DowngradeReason) : List UInt8 :=
  let out := setUint 4 (zeros 5) 0 (shiftRightUnsigned transferId 0)
  setUint 1 out 4 (reasonCode reason)

def decodeFileCancel (bytes : List UInt8) : Option FileCancel :=
  if bytes.length < 5 then none
  else some ⟨getUint32 bytes 0, downgradeReason (getUint8 bytes 4)⟩

def encodeFileProgress (transferId bytesDone : Int) : List UInt8 :=
  let out := setUint 4 (zeros 12) 0 (shiftRightUnsigned transferId 0)
  writeU64LE out 4 bytesDone

def decodeFileProgress (bytes : List UInt8) : Option FileProgress :=
  if bytes.length < 12 then none else some ⟨getUint32 bytes 0, readU64LE bytes 4⟩

end DesktopControl

end Web

end BetterParsec
