import Mathlib

set_option autoImplicit false
set_option linter.all false

/-!
# Truncation toward zero

The integer part of a rational number as `Math.trunc` gives it, the fraction that is
left, and when an integer survives being stored in a few signed bits.
-/

namespace Truncation

def trunc (q : ℚ) : Int := if q < 0 then ⌈q⌉ else ⌊q⌋

variable (q : ℚ)

theorem abs_sub_trunc_lt : |q - trunc q| < 1 := by
  unfold trunc
  split_ifs with negative
  · rw [abs_lt]
    have above := Int.le_ceil q
    have below := Int.ceil_lt_add_one q
    constructor <;> linarith
  · rw [abs_lt]
    have below := Int.floor_le q
    have above := Int.lt_floor_add_one q
    constructor <;> linarith

variable {q}

theorem trunc_le_iff {bound : Int} (nonneg : 0 ≤ bound) : trunc q ≤ bound ↔ q < bound + 1 := by
  have positive : (0 : ℚ) ≤ bound := by exact_mod_cast nonneg
  unfold trunc
  split_ifs with negative
  · have low : ⌈q⌉ ≤ 0 := Int.ceil_le.mpr (by simpa using negative.le)
    refine ⟨fun _ => by linarith, fun _ => low.trans nonneg⟩
  · rw [← Int.lt_add_one_iff, Int.floor_lt]
    push_cast
    rfl

theorem le_trunc_iff {bound : Int} (nonpos : bound ≤ 0) : bound ≤ trunc q ↔ bound - 1 < q := by
  have negative' : (bound : ℚ) ≤ 0 := by exact_mod_cast nonpos
  unfold trunc
  split_ifs with negative
  · rw [← Int.sub_one_lt_iff, Int.lt_ceil]
    push_cast
    rfl
  · have high : 0 ≤ ⌊q⌋ := Int.floor_nonneg.mpr (not_lt.mp negative)
    refine ⟨fun _ => by linarith [not_lt.mp negative], fun _ => nonpos.trans high⟩

theorem trunc_eq_zero_iff : trunc q = 0 ↔ |q| < 1 := by
  rw [abs_lt, le_antisymm_iff, trunc_le_iff le_rfl, le_trunc_iff le_rfl, and_comm]
  norm_num

/-- An integer keeps its value in `width` signed bits exactly if it is in their range. -/
theorem bmod_eq_self_iff {n : Int} {width : Nat} :
    n.bmod (2 ^ (width + 1)) = n ↔ -(2 ^ width : Int) ≤ n ∧ n < 2 ^ width := by
  have size : ((2 ^ (width + 1) : Nat) : Int) = 2 * 2 ^ width := by
    push_cast
    ring
  have positive : (0 : Int) < 2 ^ width := by positivity
  constructor
  · intro same
    have low := @Int.le_bmod n (2 ^ (width + 1)) (by positivity)
    have high := @Int.bmod_lt n (2 ^ (width + 1)) (by positivity)
    rw [same, size] at low high
    omega
  · intro ⟨low, high⟩
    apply Int.bmod_eq_of_le <;> rw [size] <;> omega

end Truncation
