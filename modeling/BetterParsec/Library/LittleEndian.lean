import Mathlib

set_option autoImplicit false
set_option linter.all false

/-!
# Fixed-width fields

Little-endian encodings of naturals, reading them back from a byte range, and
the big-endian encodings as their mirror image.
-/

namespace LittleEndian

def bytes : Nat → Nat → List UInt8
  | 0, _ => []
  | width + 1, n => UInt8.ofNat n :: bytes width (n / 256)

def value : List UInt8 → Nat
  | [] => 0
  | b :: rest => b.toNat + 256 * value rest

@[simp] theorem length_bytes (width n : Nat) : (bytes width n).length = width := by
  induction width generalizing n with
  | zero => rfl
  | succ width ih => simp [bytes, ih]

theorem value_bytes (width n : Nat) : value (bytes width n) = n % 256 ^ width := by
  induction width generalizing n with
  | zero => simp [bytes, value, Nat.mod_one]
  | succ width ih =>
    have low : (UInt8.ofNat n).toNat = n % 256 := by simp
    rw [bytes, value, ih, low, Nat.pow_succ, Nat.mul_comm (256 ^ width), Nat.mod_mul]

-- The bytes from `first` up to `first + width`.
def slice (buf : List UInt8) (first width : Nat) : List UInt8 := (buf.drop first).take width

def valueAt (buf : List UInt8) (first width : Nat) : Nat := value (slice buf first width)

theorem valueAt_bytes (width n : Nat) (after : List UInt8) (bound : n < 256 ^ width) :
    valueAt (bytes width n ++ after) 0 width = n := by
  have field : slice (bytes width n ++ after) 0 width = bytes width n := by
    rw [slice, List.drop_zero]
    exact List.take_left' (length_bytes width n)
  rw [valueAt, field, value_bytes, Nat.mod_eq_of_lt bound]

theorem valueAt_append (before after : List UInt8) (first width : Nat)
    (place : before.length ≤ first) :
    valueAt (before ++ after) first width = valueAt after (first - before.length) width := by
  rw [valueAt, valueAt, slice, slice, List.drop_append, List.drop_of_length_le place,
    List.nil_append]

theorem bytes_add (low high n : Nat) :
    bytes (low + high) n = bytes low n ++ bytes high (n / 256 ^ low) := by
  induction low generalizing n with
  | zero => simp [bytes]
  | succ low ih =>
    rw [Nat.succ_add, bytes, bytes, ih, Nat.div_div_eq_div_mul, ← Nat.pow_succ', List.cons_append]

-- Only the low bytes of a number are written.
theorem bytes_mod (width n : Nat) : bytes width (n % 256 ^ width) = bytes width n := by
  induction width generalizing n with
  | zero => rfl
  | succ width ih =>
    have low : UInt8.ofNat (n % 256 ^ (width + 1)) = UInt8.ofNat n := by
      apply UInt8.toNat_inj.mp
      rw [UInt8.toNat_ofNat', UInt8.toNat_ofNat', Nat.pow_succ', Nat.mod_mul_right_mod]
    have high : n % 256 ^ (width + 1) / 256 = n / 256 % 256 ^ width := by
      rw [Nat.pow_succ', Nat.mod_mul_right_div_self]
    rw [bytes, bytes, low, high, ih]

theorem value_append (one two : List UInt8) :
    value (one ++ two) = value one + 256 ^ one.length * value two := by
  induction one with
  | nil => simp [value]
  | cons b one ih =>
    rw [List.cons_append, value, value, ih, List.length_cons, Nat.pow_succ]
    ring

/-- A field determines its bytes. -/
theorem bytes_value (field : List UInt8) : bytes field.length (value field) = field := by
  induction field with
  | nil => rfl
  | cons b rest ih =>
    have small := b.toNat_lt
    have low : UInt8.ofNat (b.toNat + 256 * value rest) = b := by
      apply UInt8.toNat_inj.mp
      rw [UInt8.toNat_ofNat']
      omega
    have high : (b.toNat + 256 * value rest) / 256 = value rest := by omega
    rw [value, List.length_cons, bytes, low, high, ih]

theorem value_lt (field : List UInt8) : value field < 256 ^ field.length := by
  induction field with
  | nil => simp [value]
  | cons b rest ih =>
    have small := b.toNat_lt
    rw [value, List.length_cons, Nat.pow_succ]
    omega

theorem length_slice (buf : List UInt8) (first width : Nat) (inside : first + width ≤ buf.length) :
    (slice buf first width).length = width := by
  rw [slice, List.length_take, List.length_drop]
  omega

theorem valueAt_lt (buf : List UInt8) (first width : Nat) (inside : first + width ≤ buf.length) :
    valueAt buf first width < 256 ^ width := by
  have bound := value_lt (slice buf first width)
  rwa [length_slice buf first width inside] at bound

/-- A wide field is read as its lower half and its upper half. -/
theorem valueAt_add (buf : List UInt8) (first low high : Nat) (inside : first + low ≤ buf.length) :
    valueAt buf first (low + high) =
      valueAt buf first low + 256 ^ low * valueAt buf (first + low) high := by
  have halves : slice buf first (low + high) =
      slice buf first low ++ slice buf (first + low) high := by
    rw [slice, slice, slice, List.take_add, List.drop_drop]
  rw [valueAt, halves, value_append, length_slice buf first low inside, valueAt, valueAt]

/-- Writing a field back where it was read gives the buffer back. -/
theorem bytes_valueAt_append (buf : List UInt8) (first width : Nat)
    (inside : first + width ≤ buf.length) :
    bytes width (valueAt buf first width) ++ buf.drop (first + width) = buf.drop first := by
  have field := bytes_value (slice buf first width)
  rw [length_slice buf first width inside] at field
  rw [valueAt, field, slice, ← List.drop_drop, List.take_append_drop]

-- The buffer with the field written from `first` on.
def overwrite (buf : List UInt8) (first : Nat) (field : List UInt8) : List UInt8 :=
  buf.take first ++ field ++ buf.drop (first + field.length)

theorem take_overwrite (buf field : List UInt8) (first : Nat) (fits : first ≤ buf.length) :
    (overwrite buf first field).take (first + field.length) = buf.take first ++ field := by
  rw [overwrite]
  apply List.take_left'
  rw [List.length_append, List.length_take, Nat.min_eq_left fits]

theorem length_overwrite (buf field : List UInt8) (first : Nat)
    (fits : first + field.length ≤ buf.length) :
    (overwrite buf first field).length = buf.length := by
  rw [overwrite, List.length_append, List.length_append, List.length_take, List.length_drop]
  omega

/-- The next field of a buffer of zeros that is being filled from the front. -/
theorem overwrite_zeros (filled field : List UInt8) (first left : Nat)
    (place : filled.length = first) :
    overwrite (filled ++ List.replicate left 0) first field =
      (filled ++ field) ++ List.replicate (left - field.length) 0 := by
  have behind : (filled ++ List.replicate left 0).drop (first + field.length) =
      List.replicate (left - field.length) 0 := by
    rw [← place, ← List.drop_drop, List.drop_left, List.drop_replicate]
  rw [overwrite, behind, List.take_left' place]

end LittleEndian

namespace BigEndian

def bytes (width n : Nat) : List UInt8 := (LittleEndian.bytes width n).reverse

def value (field : List UInt8) : Nat := LittleEndian.value field.reverse

@[simp] theorem length_bytes (width n : Nat) : (bytes width n).length = width := by
  rw [bytes, List.length_reverse, LittleEndian.length_bytes]

theorem value_bytes (width n : Nat) : value (bytes width n) = n % 256 ^ width := by
  rw [value, bytes, List.reverse_reverse, LittleEndian.value_bytes]

end BigEndian
