import BetterParsec.Library.LittleEndian
import BetterParsec.Library.Utf8
import BetterParsec.Streamer.Clipboard

set_option autoImplicit false
set_option linter.all false

/-!
# The clipboard on the wire

`encode_text`, `decode_text` and the image codec of
`streamer/src/transport/clipboard.rs`. A text is a list of characters.
-/

namespace BetterParsec

namespace Clipboard

def clipboardKindText : UInt8 := 0

def encodeText (text : List Char) : List UInt8 :=
  let bytes := Utf8.encode text
  [clipboardKindText] ++ LittleEndian.bytes 4 (UInt32.ofNat bytes.length).toNat ++ bytes

def decodeText (data : List UInt8) : Option (List Char) :=
  if data.length < 5 ∨ data.head? ≠ some clipboardKindText then none
  else
    let len := LittleEndian.valueAt data 1 4
    if len > clipboardMaxLen then none
    else if 5 + len > data.length then none
    else Utf8.decode (LittleEndian.slice data 5 len)

namespace Image

def clipboardKindImage : UInt8 := 1

def clipboardImageMaxLen : Nat := 8 * 1024 * 1024

def imageHeaderLen : Nat := 9

def pngSignature : List UInt8 := [0x89, 0x50, 0x4E, 0x47, 0x0D, 0x0A, 0x1A, 0x0A]

structure ClipboardImage where
  width : UInt16
  height : UInt16
  png : List UInt8
  deriving DecidableEq

def encode (width height : UInt16) (png : List UInt8) : Option (List UInt8) :=
  if png.length > clipboardImageMaxLen ∨ ¬pngSignature <+: png then none
  else
    some ([clipboardKindImage] ++ LittleEndian.bytes 2 width.toNat ++
      LittleEndian.bytes 2 height.toNat ++
      LittleEndian.bytes 4 (UInt32.ofNat png.length).toNat ++ png)

def decode (data : List UInt8) : Option ClipboardImage :=
  if data.length < imageHeaderLen ∨ data.head? ≠ some clipboardKindImage then none
  else
    let width := UInt16.ofNat (LittleEndian.valueAt data 1 2)
    let height := UInt16.ofNat (LittleEndian.valueAt data 3 2)
    let len := LittleEndian.valueAt data 5 4
    if len > clipboardImageMaxLen then none
    else if imageHeaderLen + len > data.length then none
    else
      let body := LittleEndian.slice data imageHeaderLen len
      if ¬pngSignature <+: body then none else some ⟨width, height, body⟩

end Image

theorem encodeText_of_le {text : List Char} (small : (Utf8.encode text).length ≤ clipboardMaxLen) :
    encodeText text =
      clipboardKindText :: (LittleEndian.bytes 4 (Utf8.encode text).length ++ Utf8.encode text) := by
  have cap : clipboardMaxLen = 262144 := rfl
  have size : UInt32.size = 4294967296 := rfl
  rw [encodeText, UInt32.toNat_ofNat_of_lt' (by omega)]
  rfl

/-- What is accepted is the frame of a text that is short enough, whatever comes behind it. -/
theorem decodeText_eq_some_iff {data : List UInt8} {text : List Char} :
    decodeText data = some text ↔
      (Utf8.encode text).length ≤ clipboardMaxLen ∧ encodeText text <+: data := by
  have cap : clipboardMaxLen = 262144 := rfl
  constructor
  · intro decoded
    unfold decodeText at decoded
    dsimp only at decoded
    split_ifs at decoded with header large short
    obtain ⟨long, kind⟩ := not_or.mp header
    have payload := Utf8.encode_of_decode decoded
    have length : (Utf8.encode text).length = LittleEndian.valueAt data 1 4 := by
      rw [payload, LittleEndian.length_slice _ _ _ (by omega)]
    have small : (Utf8.encode text).length ≤ clipboardMaxLen := by omega
    refine ⟨small, data.drop (5 + LittleEndian.valueAt data 1 4), ?_⟩
    cases data with
    | nil => simp at long
    | cons first rest =>
      have named : first = clipboardKindText := by simpa using kind
      have field := LittleEndian.bytes_valueAt_append (first :: rest) 1 4 (by omega)
      rw [encodeText_of_le small, length, payload, ← named, List.cons_append, List.append_assoc,
        LittleEndian.slice, ← List.drop_drop, List.take_append_drop]
      exact congrArg (first :: ·) field
  · rintro ⟨small, trailing, rfl⟩
    rw [encodeText_of_le small]
    set payload := Utf8.encode text with named
    have len : LittleEndian.valueAt
        (clipboardKindText :: (LittleEndian.bytes 4 payload.length ++ payload) ++ trailing) 1 4 =
          payload.length := by
      rw [List.cons_append, List.append_assoc]
      refine (LittleEndian.valueAt_append [clipboardKindText] _ 1 4 le_rfl).trans ?_
      exact LittleEndian.valueAt_bytes 4 _ _ (by omega)
    have body : LittleEndian.slice
        (clipboardKindText :: (LittleEndian.bytes 4 payload.length ++ payload) ++ trailing) 5
          payload.length = payload := by
      rw [List.cons_append, List.append_assoc, LittleEndian.slice, List.drop_succ_cons,
        List.drop_left' (LittleEndian.length_bytes 4 _)]
      exact List.take_left' rfl
    have long : ¬((clipboardKindText :: (LittleEndian.bytes 4 payload.length ++ payload) ++
        trailing).length < 5 ∨ (clipboardKindText :: (LittleEndian.bytes 4 payload.length ++ payload) ++
          trailing).head? ≠ some clipboardKindText) := by
      simp only [List.cons_append, List.length_cons, List.length_append,
        LittleEndian.length_bytes, List.head?_cons, ne_eq, not_true_eq_false, or_false]
      omega
    unfold decodeText
    rw [if_neg long]
    dsimp only
    rw [len, if_neg (by omega), if_neg, body, named, Utf8.decode_encode]
    simp only [List.cons_append, List.length_cons, List.length_append, LittleEndian.length_bytes]
    omega

end Clipboard

end BetterParsec
