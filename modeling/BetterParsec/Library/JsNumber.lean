import Mathlib

set_option autoImplicit false
set_option linter.all false

/-!
# Bit operations on JavaScript numbers

Integers as JavaScript's bit operators see them: an operand is reduced to 32
bits, and the result is read as signed, but for the unsigned shift.
-/

namespace JsNumber

def bits (n : Int) : BitVec 32 := BitVec.ofInt 32 n

def bitXor (a b : Int) : Int := (bits a ^^^ bits b).toInt

def bitAnd (a b : Int) : Int := (bits a &&& bits b).toInt

def bitOr (a b : Int) : Int := (bits a ||| bits b).toInt

def bitNot (a : Int) : Int := (~~~ bits a).toInt

-- `a >>> places`.
def shiftRightUnsigned (a : Int) (places : Nat) : Int := ((bits a >>> places).toNat : Int)

@[simp] theorem bits_bitXor (a b : Int) : bits (bitXor a b) = bits a ^^^ bits b :=
  BitVec.ofInt_toInt

@[simp] theorem bits_shiftRightUnsigned (a : Int) (places : Nat) :
    bits (shiftRightUnsigned a places) = bits a >>> places := by
  rw [shiftRightUnsigned, bits, BitVec.ofInt_natCast, BitVec.ofNat_toNat, BitVec.setWidth_eq]

theorem shiftRightUnsigned_zero (a : Int) : shiftRightUnsigned a 0 = (bits a).toNat := rfl

theorem bits_natCast (n : Nat) : bits (n : Int) = BitVec.ofNat 32 n := BitVec.ofInt_natCast 32 n

/-- The lowest bit of a number tells whether `n & 1` counts as true. -/
theorem bitAnd_one_eq_zero_iff (a : Int) : bitAnd a 1 = 0 ↔ bits a &&& 1 = 0 := by
  rw [bitAnd, show bits 1 = 1 from rfl, ← BitVec.toInt_zero (w := 32), BitVec.toInt_inj]
  rfl

theorem and_one_cases (x : BitVec 32) : x &&& 1 = 0 ∨ x &&& 1 = 1 := by
  have low : (x &&& 1).toNat = x.toNat % 2 := by simp [Nat.and_one_is_mod]
  rcases Nat.mod_two_eq_zero_or_one x.toNat with even | odd
  · left
    apply BitVec.eq_of_toNat_eq
    rw [low, even]
    rfl
  · right
    apply BitVec.eq_of_toNat_eq
    rw [low, odd]
    rfl

-- The double nearest to a natural number: 53 significant bits, a tie goes to the even one.
def nearestDouble (n : Nat) : Nat :=
  if n < 2 ^ 53 then n
  else
    let unit := 2 ^ (n.log2 - 52)
    let quotient := n / unit
    let remainder := n % unit
    if 2 * remainder < unit ∨ 2 * remainder = unit ∧ quotient % 2 = 0 then quotient * unit
    else (quotient + 1) * unit

theorem nearestDouble_of_lt {n : Nat} (small : n < 2 ^ 53) : nearestDouble n = n := if_pos small

example : nearestDouble (2 ^ 53 + 1) = 2 ^ 53 := by decide

theorem bits_toNat_of_lt {n : Nat} (small : n < 2 ^ 32) : (bits (n : Int)).toNat = n := by
  rw [bits_natCast, BitVec.toNat_ofNat, Nat.mod_eq_of_lt small]

theorem bitAnd_natCast {m n : Nat} (left : m < 2 ^ 31) (right : n < 2 ^ 31) :
    bitAnd (m : Int) (n : Int) = ((m &&& n : Nat) : Int) := by
  have both : (bits (m : Int) &&& bits (n : Int)).toNat = m &&& n := by
    rw [BitVec.toNat_and, bits_toNat_of_lt (by omega), bits_toNat_of_lt (by omega)]
  have small : m &&& n ≤ m := Nat.and_le_left
  rw [bitAnd, BitVec.toInt_eq_toNat_of_lt (by omega), both]

theorem bitAnd_mask {n width : Nat} (low : width ≤ 31) (small : n < 2 ^ width) :
    bitAnd (n : Int) ((2 ^ width - 1 : Nat) : Int) = n := by
  have wide : 2 ^ width ≤ 2 ^ 31 := Nat.pow_le_pow_right (by omega) low
  rw [bitAnd_natCast (by omega) (by omega), Nat.and_two_pow_sub_one_eq_mod,
    Nat.mod_eq_of_lt small]

theorem shiftRightUnsigned_natCast {n : Nat} (small : n < 2 ^ 32) :
    shiftRightUnsigned (n : Int) 0 = n := by
  rw [shiftRightUnsigned_zero, bits_toNat_of_lt small]

end JsNumber
