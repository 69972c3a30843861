import Mathlib

set_option autoImplicit false
set_option linter.all false

/-!
# GF(256)

The exponential and logarithm tables of the codec (polynomial 0x11D, generator
0x02), the table-driven product and inverse, and the proof that they form a
field. Every law is reduced to iterating `xtime`, the multiplication by the
generator, which is linear over exclusive or and has period 255 at 1.
-/

namespace BetterParsec

structure GfTables where
  exp : Nat → UInt8
  log : UInt8 → Nat

-- Multiply by 0x02 modulo the polynomial 0x11D.
def xtime (x : UInt8) : UInt8 :=
  let carry := x &&& 0x80
  if carry ≠ 0 then (x <<< 1) ^^^ 0x1D else x <<< 1

def buildTablesStep (state : GfTables × UInt8) (i : Nat) : GfTables × UInt8 :=
  let (tables, x) := state
  ({ exp := Function.update (Function.update tables.exp i x) (i + 255) x
     log := Function.update tables.log x i }, xtime x)

-- The table loop after `n` of its 255 iterations.
def fillTables (n : Nat) : GfTables × UInt8 :=
  (List.range n).foldl buildTablesStep (⟨fun _ => 0, fun _ => 0⟩, 1)

def buildTables : GfTables :=
  let filled := (fillTables 255).1
  let exp := Function.update filled.exp 255 (filled.exp 0)
  { filled with exp := Function.update exp 510 (exp 255) }

def gfMul (a b : UInt8) : UInt8 :=
  if a = 0 ∨ b = 0 then 0
  else buildTables.exp (buildTables.log a + buildTables.log b)

def gfInv (a : UInt8) : UInt8 := buildTables.exp (255 - buildTables.log a)

def gfCoeff (repairSeq : UInt16) (srcSeq : UInt32) : UInt8 :=
  let h := repairSeq.toUInt32 * 0x9E3779B9 + srcSeq * 0x6B436201
  let c := ((h >>> 24) ^^^ (h >>> 16) ^^^ (h >>> 8) ^^^ h).toUInt8
  if c = 0 then 0x01 else c

theorem gfCoeff_ne_zero (repairSeq : UInt16) (srcSeq : UInt32) : gfCoeff repairSeq srcSeq ≠ 0 := by
  simp only [gfCoeff]
  split_ifs with zero
  · decide
  · exact zero

theorem xtime_xor (a b : UInt8) : xtime (a ^^^ b) = xtime a ^^^ xtime b := by
  have top (x : UInt8) : x &&& 0x80 = 0 ∨ x &&& 0x80 = 0x80 := by
    revert x
    decide +kernel
  have distribute : (a ^^^ b) &&& 0x80 = (a &&& 0x80) ^^^ (b &&& 0x80) := by
    rw [← UInt8.toBitVec_inj]
    simp only [UInt8.toBitVec_and, UInt8.toBitVec_xor]
    ext i
    simp [Bool.and_xor_distrib_right]
  have cancel (x y : UInt8) : x ^^^ y = x ^^^ 0x1D ^^^ (y ^^^ 0x1D) := by
    rw [UInt8.xor_assoc, ← UInt8.xor_assoc 0x1D, UInt8.xor_comm 0x1D y, UInt8.xor_assoc y]
    simp
  simp only [xtime, distribute, UInt8.shiftLeft_xor]
  rcases top a with high | high <;> rcases top b with low | low <;> simp [high, low]
  · exact UInt8.xor_assoc _ _ _
  · rw [UInt8.xor_assoc, UInt8.xor_assoc, UInt8.xor_comm (b <<< 1)]
  · exact cancel _ _

theorem xtime_injective : Function.Injective xtime := by
  intro a b same
  have zero : xtime (a ^^^ b) = 0 := by simp [xtime_xor, same]
  have kernel : ∀ x : UInt8, xtime x = 0 → x = 0 := by decide +kernel
  simpa using kernel _ zero

def gfPow (n : Nat) : UInt8 := xtime^[n] 1

theorem gfPow_add (m n : Nat) : gfPow (m + n) = xtime^[m] (gfPow n) :=
  Function.iterate_add_apply xtime m n 1

theorem minimalPeriod_xtime : Function.minimalPeriod xtime 1 = 255 := by
  have period : Function.IsPeriodicPt xtime 255 1 := by
    unfold Function.IsPeriodicPt Function.IsFixedPt
    decide +kernel
  have bound (n : Nat) (moved : xtime^[n] 1 ≠ 1) : ¬ Function.minimalPeriod xtime 1 ∣ n :=
    fun divides => moved (Function.isPeriodicPt_iff_minimalPeriod_dvd.mpr divides)
  have first := bound 85 (by decide +kernel)
  have second := bound 51 (by decide +kernel)
  have third := bound 15 (by decide +kernel)
  have divisor : Function.minimalPeriod xtime 1 ∈ Nat.divisors 255 :=
    Nat.mem_divisors.mpr ⟨period.minimalPeriod_dvd, by decide⟩
  rw [show Nat.divisors 255 = {1, 3, 5, 15, 17, 51, 85, 255} by decide +kernel] at divisor
  simp only [Finset.mem_insert, Finset.mem_singleton] at divisor
  rcases divisor with d | d | d | d | d | d | d | d <;>
    first | exact d | (rw [d] at first second third; omega)

theorem gfPow_period (n : Nat) : gfPow (n + 255) = gfPow n := by
  have fixed : gfPow 255 = 1 := by
    rw [gfPow, ← minimalPeriod_xtime]
    exact Function.iterate_minimalPeriod
  rw [gfPow_add, fixed]
  rfl

theorem gfPow_injective (m n : Nat) (left : m < 255) (right : n < 255)
    (same : gfPow m = gfPow n) : m = n := by
  have injective := Function.iterate_injOn_Iio_minimalPeriod (f := xtime) (x := 1)
  rw [minimalPeriod_xtime] at injective
  exact injective left right same

@[simp] theorem iterate_xtime_zero (n : Nat) : xtime^[n] 0 = 0 :=
  Function.iterate_fixed (by decide) n

theorem gfPow_ne_zero (n : Nat) : gfPow n ≠ 0 := by
  intro zero
  have same : xtime^[n] 1 = xtime^[n] 0 := by simpa [gfPow] using zero
  exact absurd (xtime_injective.iterate n same) (by decide)

/-- The 255 distinct nonzero powers exhaust the 255 nonzero bytes. -/
theorem exists_gfPow (a : UInt8) (nonzero : a ≠ 0) : ∃ n < 255, gfPow n = a := by
  have image : (Finset.range 255).image gfPow = Finset.univ.erase 0 := by
    apply Finset.eq_of_subset_of_card_le
    · intro x member
      obtain ⟨n, _, rfl⟩ := Finset.mem_image.mp member
      exact Finset.mem_erase.mpr ⟨gfPow_ne_zero n, Finset.mem_univ _⟩
    · rw [Finset.card_image_of_injOn]
      · rw [Finset.card_erase_of_mem (Finset.mem_univ _), Finset.card_range]
        decide +kernel
      · intro m left n right same
        exact gfPow_injective m n (by simpa using left) (by simpa using right) same
  have member : a ∈ (Finset.range 255).image gfPow := by simp [image, nonzero]
  obtain ⟨n, bound, rfl⟩ := Finset.mem_image.mp member
  exact ⟨n, by simpa using bound, rfl⟩

theorem fillTables_succ (n : Nat) : fillTables (n + 1) = buildTablesStep (fillTables n) n := by
  rw [fillTables, List.range_succ, List.foldl_append]
  rfl

theorem fillTables_correct (n : Nat) (bound : n ≤ 255) :
    (fillTables n).2 = gfPow n ∧
      ∀ i < n, (fillTables n).1.exp i = gfPow i ∧ (fillTables n).1.exp (i + 255) = gfPow i ∧
        (fillTables n).1.log (gfPow i) = i := by
  induction n with
  | zero => simp [fillTables, gfPow]
  | succ n ih =>
    obtain ⟨value, tables⟩ := ih (by omega)
    rw [fillTables_succ]
    simp only [buildTablesStep, value]
    refine ⟨(Function.iterate_succ_apply' xtime n 1).symm, ?_⟩
    intro i less
    rcases Nat.lt_succ_iff_lt_or_eq.mp less with earlier | rfl
    · have other : gfPow i ≠ gfPow n := fun same =>
        absurd (gfPow_injective i n (by omega) (by omega) same) (by omega)
      have facts := tables i earlier
      simp [other, facts, show i ≠ n by omega, show i ≠ n + 255 by omega,
        show i + 255 ≠ n by omega]
    · simp

theorem buildTables_exp (n : Nat) (bound : n ≤ 510) : buildTables.exp n = gfPow n := by
  obtain ⟨-, tables⟩ := fillTables_correct 255 le_rfl
  simp only [buildTables, Function.update_apply]
  generalize (fillTables 255).1 = filled at tables
  by_cases last : n = 510
  · simpa [last, gfPow_period 255, gfPow_period 0] using (tables 0 (by omega)).1
  · by_cases middle : n = 255
    · simpa [middle, gfPow_period 0] using (tables 0 (by omega)).1
    · by_cases low : n < 255
      · simpa [last, middle] using (tables n low).1
      · obtain ⟨i, rfl⟩ := Nat.exists_eq_add_of_le' (show 255 ≤ n by omega)
        rw [gfPow_period, if_neg last, if_neg middle]
        exact (tables i (by omega)).2.1

theorem buildTables_log (n : Nat) (bound : n < 255) : buildTables.log (gfPow n) = n := by
  simp only [buildTables]
  exact ((fillTables_correct 255 le_rfl).2 n bound).2.2

-- The tables are only read through the two lemmas above; unfolding them is a 255-step computation.
attribute [irreducible] buildTables

theorem log_bound (a : UInt8) (nonzero : a ≠ 0) : buildTables.log a < 255 := by
  obtain ⟨n, bound, rfl⟩ := exists_gfPow a nonzero
  rwa [buildTables_log n bound]

theorem gfPow_log (a : UInt8) (nonzero : a ≠ 0) : gfPow (buildTables.log a) = a := by
  obtain ⟨n, bound, rfl⟩ := exists_gfPow a nonzero
  rw [buildTables_log n bound]

/-- A nonzero left factor acts by iterating the generator. -/
theorem gfMul_eq_iterate (a b : UInt8) (nonzero : a ≠ 0) :
    gfMul a b = xtime^[buildTables.log a] b := by
  by_cases zero : b = 0
  · simp [gfMul, zero]
  · have left := log_bound a nonzero
    have right := log_bound b zero
    rw [gfMul, if_neg (by simp [nonzero, zero]), buildTables_exp _ (by omega), gfPow_add,
      gfPow_log b zero]

@[simp] theorem gfMul_zero_left (b : UInt8) : gfMul 0 b = 0 := by simp [gfMul]

@[simp] theorem gfMul_zero_right (a : UInt8) : gfMul a 0 = 0 := by simp [gfMul]

theorem gfMul_comm (a b : UInt8) : gfMul a b = gfMul b a := by
  simp only [gfMul, or_comm, Nat.add_comm]

theorem gfMul_xor (a b c : UInt8) : gfMul a (b ^^^ c) = gfMul a b ^^^ gfMul a c := by
  by_cases zero : a = 0
  · simp [zero]
  · simp only [gfMul_eq_iterate a _ zero]
    generalize buildTables.log a = n
    induction n with
    | zero => rfl
    | succ n ih => simp only [Function.iterate_succ_apply', ih, xtime_xor]

theorem gfMul_assoc (a b c : UInt8) : gfMul (gfMul a b) c = gfMul a (gfMul b c) := by
  by_cases left : a = 0
  · simp [left]
  · by_cases right : c = 0
    · simp [right]
    · rw [gfMul_comm (gfMul a b) c, gfMul_comm b c]
      simp only [gfMul_eq_iterate a _ left, gfMul_eq_iterate c _ right]
      exact (Function.Commute.iterate_iterate (Function.Commute.refl xtime) _ _).eq b

theorem gfMul_one (a : UInt8) : gfMul 1 a = a := by
  have unit : buildTables.log 1 = 0 := buildTables_log 0 (by omega)
  rw [gfMul_eq_iterate 1 a (by decide), unit]
  rfl

theorem gfMul_gfInv (a : UInt8) (nonzero : a ≠ 0) : gfMul a (gfInv a) = 1 := by
  have bound := log_bound a nonzero
  rw [gfMul_eq_iterate a _ nonzero, gfInv, buildTables_exp _ (by omega), ← gfPow_add,
    show buildTables.log a + (255 - buildTables.log a) = 0 + 255 by omega, gfPow_period]
  rfl

structure Gf256 where
  byte : UInt8
  deriving DecidableEq

namespace Gf256

instance : Zero Gf256 := ⟨⟨0⟩⟩
instance : One Gf256 := ⟨⟨1⟩⟩
instance : Add Gf256 := ⟨fun a b => ⟨a.byte ^^^ b.byte⟩⟩
instance : Mul Gf256 := ⟨fun a b => ⟨gfMul a.byte b.byte⟩⟩
instance : Neg Gf256 := ⟨id⟩
instance : Inv Gf256 := ⟨fun a => if a.byte = 0 then 0 else ⟨gfInv a.byte⟩⟩

@[simp] theorem byte_zero : (0 : Gf256).byte = 0 := rfl
@[simp] theorem byte_add (a b : Gf256) : (a + b).byte = a.byte ^^^ b.byte := rfl
@[simp] theorem byte_mul (a b : Gf256) : (a * b).byte = gfMul a.byte b.byte := rfl

@[ext] theorem ext {a b : Gf256} (same : a.byte = b.byte) : a = b := by
  cases a; cases b; simpa using same

theorem mul_distrib (a b c : Gf256) : a * (b + c) = a * b + a * c :=
  ext (gfMul_xor a.byte b.byte c.byte)

theorem mul_commute (a b : Gf256) : a * b = b * a := ext (gfMul_comm a.byte b.byte)

instance : Field Gf256 where
  add_assoc a b c := ext (UInt8.xor_assoc _ _ _)
  zero_add a := ext UInt8.zero_xor
  add_zero a := ext UInt8.xor_zero
  add_comm a b := ext (UInt8.xor_comm _ _)
  neg_add_cancel a := ext UInt8.xor_self
  nsmul := nsmulRec
  zsmul := zsmulRec
  left_distrib := mul_distrib
  right_distrib a b c := by
    rw [mul_commute, mul_distrib, mul_commute c a, mul_commute c b]
  zero_mul a := ext (gfMul_zero_left a.byte)
  mul_zero a := ext (gfMul_zero_right a.byte)
  mul_assoc a b c := ext (gfMul_assoc _ _ _)
  one_mul a := ext (gfMul_one _)
  mul_one a := by rw [mul_commute]; exact ext (gfMul_one _)
  mul_comm := mul_commute
  exists_pair_ne := ⟨0, 1, by decide⟩
  mul_inv_cancel a nonzero := by
    have byte : a.byte ≠ 0 := fun zero => nonzero (ext zero)
    apply ext
    change gfMul a.byte (if a.byte = 0 then (0 : Gf256) else ⟨gfInv a.byte⟩).byte = 1
    rw [if_neg byte]
    exact gfMul_gfInv a.byte byte
  inv_zero := rfl
  nnqsmul := _
  qsmul := _

/-- Exclusive or is its own inverse: characteristic two. -/
theorem add_self (a : Gf256) : a + a = 0 := ext UInt8.xor_self

end Gf256

end BetterParsec
