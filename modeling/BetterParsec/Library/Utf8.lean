import Mathlib

set_option autoImplicit false
set_option linter.all false

/-!
# UTF-8 texts in byte strings

The bytes of a text, and the longest run of characters a byte string starts with.
-/

namespace Utf8

def encode (text : List Char) : List UInt8 := text.flatMap String.utf8EncodeChar

def firstChar (bytes : List UInt8) : Option Char := bytes.toByteArray.utf8DecodeChar? 0

-- The fuel bounds the number of characters; each one takes at least one byte.
def charsFrom : Nat → List UInt8 → List Char
  | 0, _ => []
  | fuel + 1, bytes =>
    match firstChar bytes with
    | none => []
    | some c => c :: charsFrom fuel (bytes.drop c.utf8Size)

-- The characters up to the first byte that no character can start with or go on with.
def validChars (bytes : List UInt8) : List Char := charsFrom bytes.length bytes

-- The whole byte string as a text, if it is one.
def decode (bytes : List UInt8) : Option (List Char) :=
  if encode (validChars bytes) = bytes then some (validChars bytes) else none

theorem encode_cons (c : Char) (text : List Char) :
    encode (c :: text) = String.utf8EncodeChar c ++ encode text := rfl

@[simp] theorem length_encode_cons (c : Char) (text : List Char) :
    (encode (c :: text)).length = c.utf8Size + (encode text).length := by
  rw [encode_cons, List.length_append, String.length_utf8EncodeChar]

theorem firstChar_append (c : Char) (rest : List UInt8) :
    firstChar (String.utf8EncodeChar c ++ rest) = some c := by
  rw [firstChar, List.toByteArray_append]
  exact ByteArray.utf8DecodeChar?_utf8EncodeChar_append

theorem firstChar_nil : firstChar [] = none := by
  rw [firstChar]
  by_contra found
  have inside := ByteArray.lt_size_of_isSome_utf8DecodeChar? (Option.isSome_iff_ne_none.mpr found)
  exact absurd inside (by decide)

theorem length_le_length_encode (text : List Char) : text.length ≤ (encode text).length := by
  induction text with
  | nil => exact Nat.zero_le _
  | cons c text ih =>
    have width := c.utf8Size_pos
    rw [length_encode_cons, List.length_cons]
    omega

theorem charsFrom_encode (text : List Char) (fuel : Nat) (enough : text.length ≤ fuel) :
    charsFrom fuel (encode text) = text := by
  induction text generalizing fuel with
  | nil =>
    cases fuel with
    | zero => rfl
    | succ fuel => simp only [charsFrom, encode, List.flatMap_nil, firstChar_nil]
  | cons c text ih =>
    cases fuel with
    | zero => simp at enough
    | succ fuel =>
      have tail : (encode (c :: text)).drop c.utf8Size = encode text := by
        rw [encode_cons]
        exact List.drop_left' (String.length_utf8EncodeChar c)
      have head : firstChar (encode (c :: text)) = some c := firstChar_append c _
      simp only [charsFrom, head, tail]
      rw [ih fuel (by simpa using enough)]

/-- A text is read back whole. -/
theorem validChars_encode (text : List Char) : validChars (encode text) = text :=
  charsFrom_encode text _ (length_le_length_encode text)

theorem decode_encode (text : List Char) : decode (encode text) = some text := by
  rw [decode, validChars_encode, if_pos rfl]

/-- Only the bytes of a text are read as that text. -/
theorem encode_of_decode {bytes : List UInt8} {text : List Char}
    (decoded : decode bytes = some text) : encode text = bytes := by
  rw [decode] at decoded
  split_ifs at decoded with whole
  rw [Option.some.injEq] at decoded
  rw [← decoded, whole]

end Utf8
