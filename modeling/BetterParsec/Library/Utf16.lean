import Mathlib

set_option autoImplicit false
set_option linter.all false

/-!
# UTF-16 code units

The code units of a text, and the text that a sequence of code units stands for
when a surrogate without its other half is read as the replacement character.
-/

namespace Utf16

def highSurrogate (u : UInt16) : Bool := 0xD800 ≤ u.toNat && u.toNat < 0xDC00

def lowSurrogate (u : UInt16) : Bool := 0xDC00 ≤ u.toNat && u.toNat < 0xE000

def encodeChar (c : Char) : List UInt16 :=
  if c.toNat < 0x10000 then [UInt16.ofNat c.toNat]
  else
    [UInt16.ofNat (0xD800 + (c.toNat - 0x10000) / 0x400),
      UInt16.ofNat (0xDC00 + (c.toNat - 0x10000) % 0x400)]

def encode (text : List Char) : List UInt16 := text.flatMap encodeChar

def single (u : UInt16) : Char :=
  if highSurrogate u || lowSurrogate u then '\uFFFD' else Char.ofNat u.toNat

def pair (u v : UInt16) : Char :=
  Char.ofNat (0x10000 + (u.toNat - 0xD800) * 0x400 + (v.toNat - 0xDC00))

-- The scalar values of the code units.
def decode : List UInt16 → List Char
  | [] => []
  | [u] => [single u]
  | u :: v :: rest =>
    if highSurrogate u && lowSurrogate v then pair u v :: decode rest
    else single u :: decode (v :: rest)

theorem decode_single (u : UInt16) (rest : List UInt16) (basic : highSurrogate u = false) :
    decode (u :: rest) = single u :: decode rest := by
  cases rest with
  | nil => rfl
  | cons v rest =>
    rw [decode, basic]
    rfl

theorem decode_encodeChar (c : Char) (rest : List UInt16) :
    decode (encodeChar c ++ rest) = c :: decode rest := by
  have valid : c.toNat < 0xD800 ∨ (0xDFFF < c.toNat ∧ c.toNat < 0x110000) := c.valid
  rw [encodeChar]
  split_ifs with basic
  · have same : (UInt16.ofNat c.toNat).toNat = c.toNat :=
      UInt16.toNat_ofNat_of_lt' (by rw [UInt16.size]; omega)
    have high : highSurrogate (UInt16.ofNat c.toNat) = false := by
      simp only [highSurrogate, same, Bool.and_eq_false_iff, decide_eq_false_iff_not]
      omega
    have low : lowSurrogate (UInt16.ofNat c.toNat) = false := by
      simp only [lowSurrogate, same, Bool.and_eq_false_iff, decide_eq_false_iff_not]
      omega
    rw [List.singleton_append, decode_single _ _ high, single, high, low, same, Char.ofNat_toNat]
    rfl
  · have left : (UInt16.ofNat (0xD800 + (c.toNat - 0x10000) / 0x400)).toNat =
        0xD800 + (c.toNat - 0x10000) / 0x400 :=
      UInt16.toNat_ofNat_of_lt' (by rw [UInt16.size]; omega)
    have right : (UInt16.ofNat (0xDC00 + (c.toNat - 0x10000) % 0x400)).toNat =
        0xDC00 + (c.toNat - 0x10000) % 0x400 :=
      UInt16.toNat_ofNat_of_lt' (by rw [UInt16.size]; omega)
    have surrogates :
        (highSurrogate (UInt16.ofNat (0xD800 + (c.toNat - 0x10000) / 0x400)) &&
          lowSurrogate (UInt16.ofNat (0xDC00 + (c.toNat - 0x10000) % 0x400))) = true := by
      simp only [highSurrogate, lowSurrogate, left, right, Bool.and_eq_true, decide_eq_true_eq]
      omega
    have whole : 0x10000 + (0xD800 + (c.toNat - 0x10000) / 0x400 - 0xD800) * 0x400 +
        (0xDC00 + (c.toNat - 0x10000) % 0x400 - 0xDC00) = c.toNat := by omega
    rw [List.cons_append, List.singleton_append, decode, surrogates, if_pos rfl, pair, left, right,
      whole, Char.ofNat_toNat]

/-- A text is read back from its code units. -/
theorem decode_encode (text : List Char) : decode (encode text) = text := by
  induction text with
  | nil => rfl
  | cons c text ih =>
    have step := decode_encodeChar c (encode text)
    rw [ih] at step
    exact step

theorem encode_injective : Function.Injective encode := by
  intro one two same
  rw [← decode_encode one, same, decode_encode two]

end Utf16
