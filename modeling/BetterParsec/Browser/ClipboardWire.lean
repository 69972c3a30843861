import BetterParsec.Browser.DesktopControl
import BetterParsec.Streamer.ClipboardWire

set_option autoImplicit false
set_option linter.all false

/-!
# The clipboard codecs of both languages

`web/stream/clipboard_wire.ts`, and how it agrees with the codec of the streamer. A
text of the browser is its code units.
-/

namespace BetterParsec

open Web.DesktopControl (textEncode textDecode withoutMark)

namespace Web

namespace Clipboard

def clipboardKindText : Nat := 0

def clipboardMaxLen : Nat := 262144

def headerLen : Nat := 5

def encodeClipboardText (text : List UInt16) : Option (List UInt8) :=
  let bytes := textEncode text
  if bytes.length > clipboardMaxLen then none
  else
    some ([UInt8.ofNat clipboardKindText] ++
      LittleEndian.bytes 4 (UInt32.ofNat bytes.length).toNat ++ bytes)

def decodeClipboardText (buf : List UInt8) : Option (List UInt16) :=
  if buf.length < headerLen then none
  else if LittleEndian.valueAt buf 0 1 ≠ clipboardKindText then none
  else
    let len := LittleEndian.valueAt buf 1 4
    if len > clipboardMaxLen then none
    else if buf.length < headerLen + len then none
    else textDecode (LittleEndian.slice buf headerLen len)

def clipboardKindImage : Nat := 1

def clipboardImageMaxLen : Nat := 8 * 1024 * 1024

def imageHeaderLen : Nat := 9

def pngSignature : List UInt8 := [0x89, 0x50, 0x4E, 0x47, 0x0D, 0x0A, 0x1A, 0x0A]

structure ClipboardImage where
  width : Nat
  height : Nat
  png : List UInt8
  deriving DecidableEq

def startsWithPngSignature (bytes : List UInt8) : Bool :=
  if bytes.length < pngSignature.length then false
  else (List.range pngSignature.length).all fun i => bytes[i]? = pngSignature[i]?

-- `width & 0xffff`, which is an unsigned integer of 16 bits.
def encodeClipboardImage (width height : Int) (png : List UInt8) : Option (List UInt8) :=
  if png.length > clipboardImageMaxLen ∨ !startsWithPngSignature png then none
  else
    some ([UInt8.ofNat clipboardKindImage] ++ LittleEndian.bytes 2 (UInt16.ofInt width).toNat ++
      LittleEndian.bytes 2 (UInt16.ofInt height).toNat ++
      LittleEndian.bytes 4 (UInt32.ofNat png.length).toNat ++ png)

def decodeClipboardImage (buf : List UInt8) : Option ClipboardImage :=
  if buf.length < imageHeaderLen then none
  else if LittleEndian.valueAt buf 0 1 ≠ clipboardKindImage then none
  else
    let width := LittleEndian.valueAt buf 1 2
    let height := LittleEndian.valueAt buf 3 2
    let len := LittleEndian.valueAt buf 5 4
    if len > clipboardImageMaxLen then none
    else if buf.length < imageHeaderLen + len then none
    else
      let png := LittleEndian.slice buf imageHeaderLen len
      if !startsWithPngSignature png then none else some ⟨width, height, png⟩

theorem startsWithPngSignature_iff (bytes : List UInt8) :
    startsWithPngSignature bytes = true ↔ pngSignature <+: bytes := by
  unfold startsWithPngSignature
  split_ifs with short
  · refine ⟨fun absurd => by simp at absurd, fun starts => ?_⟩
    exact absurd starts.length_le (by omega)
  · rw [List.prefix_iff_getElem?]
    simp only [List.all_eq_true, List.mem_range, decide_eq_true_eq]
    refine forall₂_congr fun i inside => ?_
    rw [List.getElem?_eq_getElem inside]

theorem kind_iff {buf : List UInt8} (long : 0 < buf.length) (kind : UInt8) :
    LittleEndian.valueAt buf 0 1 = kind.toNat ↔ buf.head? = some kind := by
  cases buf with
  | nil => simp at long
  | cons first rest =>
    simp [LittleEndian.valueAt, LittleEndian.slice, LittleEndian.value, UInt8.toNat_inj]

/-- The browser reads what the streamer reads, without a leading mark. -/
theorem decodeClipboardText_eq (buf : List UInt8) :
    decodeClipboardText buf =
      (BetterParsec.Clipboard.decodeText buf).map fun text => Utf16.encode (withoutMark text) := by
  unfold decodeClipboardText BetterParsec.Clipboard.decodeText
  by_cases short : buf.length < headerLen
  · have short' : buf.length < 5 := short
    simp [short, short']
  · have header : headerLen = 5 := rfl
    have long : ¬buf.length < 5 := short
    have kind := kind_iff (by omega : 0 < buf.length) BetterParsec.Clipboard.clipboardKindText
    by_cases other : buf.head? = some BetterParsec.Clipboard.clipboardKindText
    · have same : LittleEndian.valueAt buf 0 1 = clipboardKindText := kind.mpr other
      rw [if_neg short, if_neg (not_not.mpr same), if_neg (not_or.mpr ⟨long, not_not.mpr other⟩)]
      by_cases large : LittleEndian.valueAt buf 1 4 > clipboardMaxLen
      · have large' : LittleEndian.valueAt buf 1 4 > BetterParsec.Clipboard.clipboardMaxLen := large
        simp [large, large']
      by_cases cut : buf.length < headerLen + LittleEndian.valueAt buf 1 4
      · have cut' : 5 + LittleEndian.valueAt buf 1 4 > buf.length := cut
        simp [cut, cut']
      · have large' : ¬LittleEndian.valueAt buf 1 4 > BetterParsec.Clipboard.clipboardMaxLen := large
        have cut' : ¬5 + LittleEndian.valueAt buf 1 4 > buf.length := cut
        rw [if_neg large, if_neg cut, if_neg large', if_neg cut']
        rfl
    · have same : ¬LittleEndian.valueAt buf 0 1 = clipboardKindText := fun same =>
        other (kind.mp same)
      simp [short, other, same]

/-- Both read the same images. -/
theorem decodeClipboardImage_eq (buf : List UInt8) :
    decodeClipboardImage buf = (BetterParsec.Clipboard.Image.decode buf).map fun image =>
      ⟨image.width.toNat, image.height.toNat, image.png⟩ := by
  unfold decodeClipboardImage BetterParsec.Clipboard.Image.decode
  by_cases short : buf.length < imageHeaderLen
  · have short' : buf.length < BetterParsec.Clipboard.Image.imageHeaderLen := short
    simp [short, short']
  · have header : imageHeaderLen = 9 := rfl
    have long : ¬buf.length < BetterParsec.Clipboard.Image.imageHeaderLen := short
    have kind := kind_iff (by omega : 0 < buf.length)
      BetterParsec.Clipboard.Image.clipboardKindImage
    by_cases other : buf.head? = some BetterParsec.Clipboard.Image.clipboardKindImage
    · have same : LittleEndian.valueAt buf 0 1 = clipboardKindImage := kind.mpr other
      have width := LittleEndian.valueAt_lt buf 1 2 (by omega)
      have height := LittleEndian.valueAt_lt buf 3 2 (by omega)
      have signature := startsWithPngSignature_iff
        (LittleEndian.slice buf imageHeaderLen (LittleEndian.valueAt buf 5 4))
      rw [if_neg short, if_neg (not_not.mpr same), if_neg (not_or.mpr ⟨long, not_not.mpr other⟩)]
      by_cases large : LittleEndian.valueAt buf 5 4 > clipboardImageMaxLen
      · have large' : LittleEndian.valueAt buf 5 4 >
          BetterParsec.Clipboard.Image.clipboardImageMaxLen := large
        simp [large, large']
      by_cases cut : buf.length < imageHeaderLen + LittleEndian.valueAt buf 5 4
      · have cut' : BetterParsec.Clipboard.Image.imageHeaderLen + LittleEndian.valueAt buf 5 4 >
          buf.length := cut
        simp [cut, cut']
      · have large' : ¬LittleEndian.valueAt buf 5 4 >
          BetterParsec.Clipboard.Image.clipboardImageMaxLen := large
        have cut' : ¬BetterParsec.Clipboard.Image.imageHeaderLen + LittleEndian.valueAt buf 5 4 >
          buf.length := cut
        dsimp only
        rw [if_neg large, if_neg cut, if_neg large', if_neg cut']
        by_cases starts : pngSignature <+:
          LittleEndian.slice buf imageHeaderLen (LittleEndian.valueAt buf 5 4)
        · have starts' : BetterParsec.Clipboard.Image.pngSignature <+:
            LittleEndian.slice buf BetterParsec.Clipboard.Image.imageHeaderLen
              (LittleEndian.valueAt buf 5 4) := starts
          rw [if_neg (by simp [signature.mpr starts]), if_neg (not_not.mpr starts'),
            Option.map_some, UInt16.toNat_ofNat_of_lt' width, UInt16.toNat_ofNat_of_lt' height]
          rfl
        · have starts' : ¬BetterParsec.Clipboard.Image.pngSignature <+:
            LittleEndian.slice buf BetterParsec.Clipboard.Image.imageHeaderLen
              (LittleEndian.valueAt buf 5 4) := starts
          have refused : startsWithPngSignature
              (LittleEndian.slice buf imageHeaderLen (LittleEndian.valueAt buf 5 4)) = false := by
            rw [← Bool.not_eq_true]
            exact fun found => starts (signature.mp found)
          rw [if_pos (by simp [refused]), if_pos starts']
          rfl
    · have same : ¬LittleEndian.valueAt buf 0 1 = clipboardKindImage := fun same =>
        other (kind.mp same)
      simp [short, other, same]

theorem withoutMark_eq_self_iff (text : List Char) :
    withoutMark text = text ↔ text.head? ≠ some '\uFEFF' := by
  cases text with
  | nil => simp [withoutMark]
  | cons c text =>
    by_cases mark : c = '\uFEFF'
    · simp [withoutMark, mark]
    · simp [withoutMark, mark]

-- The frame of a text that begins with a byte order mark, and whatever comes behind it.
def Marked (buf : List UInt8) : Prop :=
  ∃ text : List Char, (Utf8.encode ('\uFEFF' :: text)).length ≤ clipboardMaxLen ∧
    BetterParsec.Clipboard.encodeText ('\uFEFF' :: text) <+: buf

theorem decodeClipboardText_agrees_iff (buf : List UInt8) :
    decodeClipboardText buf = (BetterParsec.Clipboard.decodeText buf).map Utf16.encode ↔
      ¬Marked buf := by
  rw [decodeClipboardText_eq]
  cases decoded : BetterParsec.Clipboard.decodeText buf with
  | none =>
    refine ⟨fun _ marked => ?_, fun _ => rfl⟩
    obtain ⟨text, frame⟩ := marked
    have read := BetterParsec.Clipboard.decodeText_eq_some_iff.mpr frame
    rw [decoded] at read
    simp at read
  | some text =>
    rw [Option.map_some, Option.map_some, Option.some.injEq, Utf16.encode_injective.eq_iff,
      withoutMark_eq_self_iff, not_iff_not]
    constructor
    · intro mark
      obtain ⟨rest, rfl⟩ : ∃ rest, text = '\uFEFF' :: rest := by
        cases text with
        | nil => simp at mark
        | cons c rest => exact ⟨rest, by simpa using mark⟩
      exact ⟨rest, BetterParsec.Clipboard.decodeText_eq_some_iff.mp decoded⟩
    · intro ⟨rest, frame⟩
      have read := BetterParsec.Clipboard.decodeText_eq_some_iff.mpr frame
      rw [decoded, Option.some.injEq] at read
      rw [read]
      rfl

theorem encodeClipboardText_agrees {text : List Char}
    (small : (Utf8.encode text).length ≤ clipboardMaxLen) :
    encodeClipboardText (Utf16.encode text) = some (BetterParsec.Clipboard.encodeText text) := by
  have same : textEncode (Utf16.encode text) = Utf8.encode text := by
    rw [textEncode, Utf16.decode_encode]
  rw [encodeClipboardText, same, if_neg (Nat.not_lt.mpr small)]
  rfl

theorem encodeClipboardImage_agrees (width height : UInt16) (png : List UInt8) :
    encodeClipboardImage width.toNat height.toNat png =
      BetterParsec.Clipboard.Image.encode width height png := by
  have signature : (!startsWithPngSignature png) = true ↔ ¬pngSignature <+: png := by
    rw [Bool.not_eq_true', ← Bool.not_eq_true, startsWithPngSignature_iff]
  have integer (n : UInt16) : UInt16.ofInt n.toNat = n := by
    have bound := n.toNat_lt
    rw [UInt16.ofInt, Int.emod_eq_of_lt (by omega) (by omega), Int.toNat_natCast,
      UInt16.ofNat_toNat]
  simp only [encodeClipboardImage, BetterParsec.Clipboard.Image.encode, signature, integer]
  rfl

/-- Both codecs read every frame alike, and every text comes back from both, except for those that
begin with a byte order mark, which only the browser drops. -/
theorem clipboard_agrees_iff (buf : List UInt8) (text : List Char) :
    (decodeClipboardText buf = (BetterParsec.Clipboard.decodeText buf).map Utf16.encode ↔
      ¬Marked buf) ∧
    (decodeClipboardImage buf = (BetterParsec.Clipboard.Image.decode buf).map fun image =>
      ⟨image.width.toNat, image.height.toNat, image.png⟩) ∧
    ((Utf8.encode text).length ≤ clipboardMaxLen →
      encodeClipboardText (Utf16.encode text) = some (BetterParsec.Clipboard.encodeText text) ∧
      BetterParsec.Clipboard.decodeText (BetterParsec.Clipboard.encodeText text) = some text ∧
      (decodeClipboardText (BetterParsec.Clipboard.encodeText text) = some (Utf16.encode text) ↔
        text.head? ≠ some '\uFEFF')) := by
  refine ⟨decodeClipboardText_agrees_iff buf, decodeClipboardImage_eq buf, fun small => ?_⟩
  have read := BetterParsec.Clipboard.decodeText_eq_some_iff.mpr
    ⟨small, List.prefix_refl (BetterParsec.Clipboard.encodeText text)⟩
  refine ⟨encodeClipboardText_agrees small, read, ?_⟩
  rw [decodeClipboardText_eq, read, Option.map_some, Option.some.injEq,
    Utf16.encode_injective.eq_iff, withoutMark_eq_self_iff]

theorem clipboard_agrees_iff_hangul :
    encodeClipboardText (Utf16.encode ['가']) = some [0, 3, 0, 0, 0, 0xEA, 0xB0, 0x80] ∧
      BetterParsec.Clipboard.decodeText [0, 3, 0, 0, 0, 0xEA, 0xB0, 0x80] = some ['가'] ∧
      decodeClipboardText [0, 3, 0, 0, 0, 0xEA, 0xB0, 0x80] = some (Utf16.encode ['가']) :=
  have ⟨encoded, read, web⟩ := (clipboard_agrees_iff [] ['가']).2.2 (by decide)
  ⟨encoded, read, web.mpr (by decide)⟩

theorem clipboard_not_agrees :
    BetterParsec.Clipboard.decodeText [0, 3, 0, 0, 0, 0xEF, 0xBB, 0xBF] = some ['\uFEFF'] ∧
      decodeClipboardText [0, 3, 0, 0, 0, 0xEF, 0xBB, 0xBF] = some [] ∧
      decodeClipboardText [0, 3, 0, 0, 0, 0xEF, 0xBB, 0xBF] ≠
        (BetterParsec.Clipboard.decodeText [0, 3, 0, 0, 0, 0xEF, 0xBB, 0xBF]).map Utf16.encode := by
  have read : BetterParsec.Clipboard.decodeText [0, 3, 0, 0, 0, 0xEF, 0xBB, 0xBF] =
      some ['\uFEFF'] :=
    BetterParsec.Clipboard.decodeText_eq_some_iff.mpr ⟨by decide, by decide⟩
  have web : decodeClipboardText [0, 3, 0, 0, 0, 0xEF, 0xBB, 0xBF] = some [] := by
    rw [decodeClipboardText_eq, read]
    rfl
  refine ⟨read, web, ?_⟩
  rw [read, web]
  decide

end Clipboard

end Web

end BetterParsec
