import BetterParsec.Library.Utf8

set_option autoImplicit false
set_option linter.all false

/-!
# Any bytes as text

The decoder that never fails: a character is taken where one stands, and what
begins like a character but does not end like one becomes a single U+FFFD.
-/

namespace Utf8

-- How many bytes belong behind a first byte, and the range of the next one.
def following (b : UInt8) : Option (Nat × UInt8 × UInt8) :=
  if 0xC2 ≤ b ∧ b ≤ 0xDF then some (1, 0x80, 0xBF)
  else if b = 0xE0 then some (2, 0xA0, 0xBF)
  else if b = 0xED then some (2, 0x80, 0x9F)
  else if 0xE1 ≤ b ∧ b ≤ 0xEF then some (2, 0x80, 0xBF)
  else if b = 0xF0 then some (3, 0x90, 0xBF)
  else if b = 0xF4 then some (3, 0x80, 0x8F)
  else if 0xF1 ≤ b ∧ b ≤ 0xF3 then some (3, 0x80, 0xBF)
  else none

def accepted : Nat → UInt8 → UInt8 → List UInt8 → Nat
  | 0, _, _, _ => 0
  | _ + 1, _, _, [] => 0
  | needed + 1, lower, upper, b :: rest =>
    if lower ≤ b ∧ b ≤ upper then accepted needed 0x80 0xBF rest + 1 else 0

-- The bytes that one U+FFFD stands for: those read before a byte is refused.
def illFormed (b : UInt8) (rest : List UInt8) : Nat :=
  match following b with
  | none => 1
  | some (needed, lower, upper) => accepted needed lower upper rest + 1

-- The fuel bounds the number of characters; each one takes at least one byte.
def lossyFrom : Nat → List UInt8 → List Char
  | 0, _ => []
  | _ + 1, [] => []
  | fuel + 1, b :: rest =>
    match firstChar (b :: rest) with
    | some c => c :: lossyFrom fuel ((b :: rest).drop c.utf8Size)
    | none => '\uFFFD' :: lossyFrom fuel ((b :: rest).drop (illFormed b rest))

def lossy (bytes : List UInt8) : List Char := lossyFrom bytes.length bytes

theorem illFormed_pos (b : UInt8) (rest : List UInt8) : 0 < illFormed b rest := by
  unfold illFormed
  split <;> omega

theorem length_lossyFrom_le (fuel : Nat) (bytes : List UInt8) :
    (lossyFrom fuel bytes).length ≤ bytes.length := by
  induction fuel generalizing bytes with
  | zero => exact Nat.zero_le _
  | succ fuel ih =>
    cases bytes with
    | nil => exact Nat.le_refl _
    | cons b rest =>
      -- Whatever is read here, at least this byte is taken.
      have shorter : ∀ taken, 0 < taken →
          (lossyFrom fuel ((b :: rest).drop taken)).length + 1 ≤ (b :: rest).length := by
        intro taken some
        have left := ih ((b :: rest).drop taken)
        rw [List.length_drop, List.length_cons] at left
        rw [List.length_cons]
        omega
      rw [lossyFrom]
      split
      next c _ => exact shorter c.utf8Size c.utf8Size_pos
      next => exact shorter (illFormed b rest) (illFormed_pos b rest)

theorem lossyFrom_char (fuel : Nat) (c : Char) (rest : List UInt8) :
    lossyFrom (fuel + 1) (String.utf8EncodeChar c ++ rest) = c :: lossyFrom fuel rest := by
  have head : firstChar (String.utf8EncodeChar c ++ rest) = some c := firstChar_append c rest
  have tail : (String.utf8EncodeChar c ++ rest).drop c.utf8Size = rest :=
    List.drop_left' (String.length_utf8EncodeChar c)
  cases all : String.utf8EncodeChar c ++ rest with
  | nil =>
    rw [all, firstChar_nil] at head
    contradiction
  | cons b behind =>
    rw [all] at head tail
    simp only [lossyFrom, head, tail]

theorem lossyFrom_encode (text : List Char) (fuel : Nat) (enough : text.length ≤ fuel) :
    lossyFrom fuel (encode text) = text := by
  induction text generalizing fuel with
  | nil => cases fuel <;> rfl
  | cons c text ih =>
    cases fuel with
    | zero => simp at enough
    | succ fuel => rw [encode_cons, lossyFrom_char, ih fuel (by simpa using enough)]

/-- A text is read back whole. -/
theorem lossy_encode (text : List Char) : lossy (encode text) = text :=
  lossyFrom_encode text _ (length_le_length_encode text)

theorem length_encode_le (text : List Char) : (encode text).length ≤ 4 * text.length := by
  induction text with
  | nil => exact Nat.le_refl _
  | cons c text ih =>
    have width := c.utf8Size_le_four
    rw [length_encode_cons, List.length_cons]
    omega

theorem length_lossyFrom_take (text : List Char) (kept fuel : Nat)
    (cut : kept + 16 ≤ (encode text).length) :
    (lossyFrom fuel ((encode text).take kept)).length < text.length := by
  induction text generalizing kept fuel with
  | nil => simp [encode] at cut
  | cons c text ih =>
    have four := length_encode_le (c :: text)
    rw [length_encode_cons] at cut four
    by_cases whole : c.utf8Size ≤ kept
    · have split : (encode (c :: text)).take kept =
          String.utf8EncodeChar c ++ (encode text).take (kept - c.utf8Size) := by
        rw [encode_cons, List.take_append, String.length_utf8EncodeChar,
          List.take_of_length_le (by rw [String.length_utf8EncodeChar]; exact whole)]
      cases fuel with
      | zero => exact Nat.succ_pos _
      | succ fuel =>
        rw [split, lossyFrom_char, List.length_cons, List.length_cons]
        have shorter := ih (kept - c.utf8Size) fuel (by omega)
        omega
    · -- The cut is inside this character, and three bytes make three characters at most.
      have few := length_lossyFrom_le fuel ((encode (c :: text)).take kept)
      have width := c.utf8Size_le_four
      rw [List.length_take] at few
      rw [List.length_cons] at four ⊢
      omega

/-- A text cut by sixteen bytes or more is read with fewer characters than it has. -/
theorem length_lossy_take (text : List Char) (kept : Nat)
    (cut : kept + 16 ≤ (encode text).length) :
    (lossy ((encode text).take kept)).length < text.length :=
  length_lossyFrom_take text kept _ cut

-- A cut character is one U+FFFD, and so is each byte no character begins with.
example : lossy [0xF0, 0x9F, 0x98, 0x41, 0xFF] = ['\uFFFD', 'A', '\uFFFD'] := by decide +kernel

end Utf8
