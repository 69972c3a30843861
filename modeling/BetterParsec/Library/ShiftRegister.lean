import Mathlib.Data.List.GetD
import Mathlib.Logic.Function.Iterate

set_option autoImplicit false
set_option linter.all false

/-!
# Feedback shift registers

A register of `w` bits that moves down one place at a step and takes the feedback word `poly`
when a set bit falls out. Fed a string of bits it is linear in exclusive or, so two strings are
told apart by the string of their differences. Where the top bit of `poly` is set no step loses
anything, and no string of at most `w` bits, other than zeros, leads from zero back to zero.
-/

namespace ShiftRegister

variable {w : Nat} (poly : BitVec w)

def step (x : BitVec w) : BitVec w :=
  (x >>> 1) ^^^ (if x.getLsbD 0 then poly else 0#w)

def place (bit : Bool) : BitVec w :=
  if bit then 1#w else 0#w

def feed (x : BitVec w) (bit : Bool) : BitVec w :=
  step poly (x ^^^ place bit)

def run (x : BitVec w) (bits : List Bool) : BitVec w :=
  bits.foldl (feed poly) x

/-- The lowest `k` bits, lowest first. -/
def lowBits : Nat → BitVec w → List Bool
  | 0, _ => []
  | k + 1, y => y.getLsbD 0 :: lowBits k (y >>> 1)

theorem getLsbD_step (x : BitVec w) (i : Nat) :
    (step poly x).getLsbD i = (x.getLsbD (i + 1) ^^ (x.getLsbD 0 && poly.getLsbD i)) := by
  rw [step, BitVec.getLsbD_xor, BitVec.getLsbD_ushiftRight, Nat.add_comm 1 i]
  cases x.getLsbD 0 <;> simp

theorem getLsbD_place_zero (wide : 0 < w) (bit : Bool) :
    (place bit : BitVec w).getLsbD 0 = bit := by
  cases bit <;> simp [place, wide]

theorem getLsbD_place_succ (bit : Bool) (i : Nat) :
    (place bit : BitVec w).getLsbD (i + 1) = false := by
  cases bit <;> simp [place, BitVec.getLsbD_ofNat, Nat.testBit_add_one]

theorem step_xor (x y : BitVec w) : step poly (x ^^^ y) = step poly x ^^^ step poly y := by
  apply BitVec.eq_of_getLsbD_eq
  intro i _
  simp only [getLsbD_step, BitVec.getLsbD_xor]
  cases x.getLsbD 0 <;> cases y.getLsbD 0 <;> cases x.getLsbD (i + 1) <;>
    cases y.getLsbD (i + 1) <;> cases poly.getLsbD i <;> rfl

theorem place_xor (a b : Bool) : (place (a ^^ b) : BitVec w) = place a ^^^ place b := by
  cases a <;> cases b <;> simp [place]

theorem feed_xor (x y : BitVec w) (a b : Bool) :
    feed poly (x ^^^ y) (a ^^ b) = feed poly x a ^^^ feed poly y b := by
  rw [feed, feed, feed, ← step_xor, place_xor]
  congr 1
  ac_rfl

theorem run_append (x : BitVec w) (first last : List Bool) :
    run poly x (first ++ last) = run poly (run poly x first) last :=
  List.foldl_append

theorem run_xor (a b : List Bool) (same : a.length = b.length) (x y : BitVec w) :
    run poly (x ^^^ y) (List.zipWith xor a b) = run poly x a ^^^ run poly y b := by
  induction a generalizing b x y with
  | nil =>
    cases b with
    | nil => rfl
    | cons bit rest => exact absurd same (by simp)
  | cons bit rest ih =>
    cases b with
    | nil => exact absurd same (by simp)
    | cons other others =>
      have lengths : rest.length = others.length := Nat.succ.inj same
      have fed := feed_xor poly x y bit other
      rw [List.zipWith_cons_cons]
      simp only [run, List.foldl_cons] at ih ⊢
      rw [fed, ih others lengths]

/-- Feeding bit by bit does what one exclusive or in front of as many steps does. -/
theorem step_iterate_xor (k : Nat) (x y : BitVec w) (narrow : y >>> k = 0#w) :
    (step poly)^[k] (x ^^^ y) = run poly x (lowBits k y) := by
  induction k generalizing x y with
  | zero =>
    rw [BitVec.ushiftRight_zero] at narrow
    rw [narrow]
    exact BitVec.xor_zero
  | succ k ih =>
    have first : step poly (x ^^^ y) = feed poly x (y.getLsbD 0) ^^^ (y >>> 1) := by
      apply BitVec.eq_of_getLsbD_eq
      intro i inside
      have wide : 0 < w := by omega
      simp only [feed, getLsbD_step, BitVec.getLsbD_xor, getLsbD_place_zero wide,
        getLsbD_place_succ, BitVec.getLsbD_ushiftRight, Nat.add_comm 1 i, Bool.xor_false]
      cases x.getLsbD (i + 1) <;> cases y.getLsbD (i + 1) <;>
        cases ((x.getLsbD 0 ^^ y.getLsbD 0) && poly.getLsbD i) <;> rfl
    have rest : (y >>> 1) >>> k = 0#w := by
      rw [← BitVec.shiftRight_add, Nat.add_comm, narrow]
    rw [Function.iterate_succ_apply, first, ih _ _ rest]
    rfl

theorem run_zeros (bits : List Bool) (quiet : ∀ bit ∈ bits, bit = false) :
    run poly 0#w bits = 0#w := by
  induction bits with
  | nil => rfl
  | cons bit rest ih =>
    have idle : feed poly 0#w bit = 0#w := by
      rw [quiet bit List.mem_cons_self]
      simp [feed, place, step]
    have later := ih (fun other member => quiet other (List.mem_cons_of_mem bit member))
    rw [run, List.foldl_cons, idle]
    exact later

section Feedback

variable (top : poly.getLsbD (w - 1) = true)

include top

/-- The bit that falls out comes back as the top bit. -/
theorem getLsbD_step_top (x : BitVec w) : (step poly x).getLsbD (w - 1) = x.getLsbD 0 := by
  rw [getLsbD_step, top, Bool.and_true, BitVec.getLsbD_of_ge x (w - 1 + 1) (by omega)]
  exact Bool.false_xor _

/-- A step whose result has no top bit was a plain move down. -/
theorem getLsbD_of_step (x : BitVec w) (clear : (step poly x).getLsbD (w - 1) = false) :
    x.getLsbD 0 = false ∧ ∀ i, x.getLsbD (i + 1) = (step poly x).getLsbD i := by
  have low : x.getLsbD 0 = false := (getLsbD_step_top poly top x).symm.trans clear
  refine ⟨low, fun i => ?_⟩
  rw [getLsbD_step, low, Bool.false_and, Bool.xor_false]

theorem step_eq_zero (x : BitVec w) (gone : step poly x = 0#w) : x = 0#w := by
  have moved := getLsbD_of_step poly top x (by rw [gone]; exact BitVec.getLsbD_zero)
  apply BitVec.eq_of_getLsbD_eq
  intro i _
  rw [BitVec.getLsbD_zero]
  cases i with
  | zero => exact moved.1
  | succ i => rw [moved.2 i, gone, BitVec.getLsbD_zero]

theorem run_zeros_eq_zero (bits : List Bool) (quiet : ∀ bit ∈ bits, bit = false) (x : BitVec w)
    (gone : run poly x bits = 0#w) : x = 0#w := by
  induction bits generalizing x with
  | nil => exact gone
  | cons bit rest ih =>
    have later := ih (fun other member => quiet other (List.mem_cons_of_mem bit member))
      (feed poly x bit) gone
    rw [feed, quiet bit List.mem_cons_self] at later
    simpa [place] using step_eq_zero poly top _ later

/-- What is brought to zero by at most `w` bits holds just those bits. -/
theorem getLsbD_of_run (bits : List Bool) (short : bits.length ≤ w) (x : BitVec w)
    (gone : run poly x bits = 0#w) (i : Nat) : x.getLsbD i = bits.getD i false := by
  induction bits generalizing x i with
  | nil =>
    have zero : x = 0#w := gone
    rw [zero, BitVec.getLsbD_zero]
    rfl
  | cons bit rest ih =>
    rw [List.length_cons] at short
    have later := ih (by omega) (feed poly x bit) gone
    have clear : (feed poly x bit).getLsbD (w - 1) = false := by
      rw [later, List.getD_eq_default _ _ (by omega)]
    have moved := getLsbD_of_step poly top (x ^^^ place bit) clear
    cases i with
    | zero =>
      have low := moved.1
      rw [BitVec.getLsbD_xor, getLsbD_place_zero (by omega)] at low
      rw [List.getD_cons_zero]
      exact bne_eq_false_iff_eq.1 low
    | succ i =>
      have same := moved.2 i
      rw [BitVec.getLsbD_xor, getLsbD_place_succ, Bool.xor_false] at same
      rw [List.getD_cons_succ, same]
      exact later i

theorem eq_false_of_run (bits : List Bool) (short : bits.length ≤ w) (gone : run poly 0#w bits = 0#w) :
    ∀ bit ∈ bits, bit = false := by
  intro bit member
  obtain ⟨i, inside, found⟩ := List.mem_iff_getElem.1 member
  have held := getLsbD_of_run poly top bits short 0#w gone i
  rw [BitVec.getLsbD_zero, List.getD_eq_getElem _ _ inside] at held
  rw [← found, ← held]

/-- Strings that differ only within `w` consecutive bits, and do differ, leave different
registers behind. -/
theorem run_burst (x : BitVec w) (a b : List Bool) (same : a.length = b.length) (first : Nat)
    (outside : ∀ i, a.getD i false ≠ b.getD i false → first ≤ i ∧ i < first + w)
    (equal : run poly x a = run poly x b) : a = b := by
  let d := List.zipWith xor a b
  have differs (i : Nat) (inside : i < d.length) :
      d[i] = (a.getD i false ^^ b.getD i false) := by
    have bound : i < a.length ∧ i < b.length := by
      rw [List.length_zipWith] at inside
      omega
    rw [List.getElem_zipWith, List.getD_eq_getElem _ _ bound.1, List.getD_eq_getElem _ _ bound.2]
  have still (i : Nat) (inside : i < d.length) (far : i < first ∨ first + w ≤ i) :
      d[i] = false := by
    rw [differs i inside]
    apply bne_eq_false_iff_eq.2
    by_contra other
    have near := outside i other
    omega
  have total : run poly 0#w d = 0#w := by
    have linear := run_xor poly a b same x x
    rw [BitVec.xor_self, equal, BitVec.xor_self] at linear
    exact linear
  -- the register is zero when the window begins, and zero again when it ends
  have before : run poly 0#w (d.take first) = 0#w := by
    apply run_zeros
    intro bit member
    obtain ⟨i, inside, found⟩ := List.mem_iff_getElem.1 member
    rw [List.length_take] at inside
    rw [← found, List.getElem_take]
    exact still i (by omega) (.inl (by omega))
  have window : run poly 0#w ((d.drop first).take w) = 0#w := by
    apply run_zeros_eq_zero poly top ((d.drop first).drop w)
    · intro bit member
      obtain ⟨i, inside, found⟩ := List.mem_iff_getElem.1 member
      rw [List.length_drop, List.length_drop] at inside
      rw [← found, List.getElem_drop, List.getElem_drop]
      exact still _ (by omega) (.inr (by omega))
    · have reached := run_append poly 0#w (d.take first) (d.drop first)
      rw [List.take_append_drop, total, before] at reached
      rw [← run_append, List.take_append_drop]
      exact reached.symm
  have silent := eq_false_of_run poly top _ (by rw [List.length_take]; omega) window
  apply List.ext_getElem same
  intro i left right
  have inside : i < d.length := by
    rw [List.length_zipWith]
    omega
  have quiet : d[i] = false := by
    by_cases near : first ≤ i ∧ i < first + w
    · apply silent
      have member : ((d.drop first).take w)[i - first]? = some d[i] := by
        rw [List.getElem?_take_of_lt (by omega), List.getElem?_drop,
          Nat.add_sub_cancel' near.1, List.getElem?_eq_getElem inside]
      exact List.mem_of_getElem? member
    · exact still i inside (by omega)
  rw [differs i inside, List.getD_eq_getElem _ _ left, List.getD_eq_getElem _ _ right] at quiet
  exact bne_eq_false_iff_eq.1 quiet

end Feedback

end ShiftRegister
