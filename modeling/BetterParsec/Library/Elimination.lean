import Mathlib

set_option autoImplicit false
set_option linter.all false

/-!
# Gauss-Jordan elimination on augmented rows

Rows carry their coefficients and a vector of right-hand sides. A run keeps the
rows already used as pivots apart from the remaining ones; pivots are recorded
with their column, in increasing column order.
-/

namespace Elimination

variable {F : Type}

structure Row (F : Type) where
  coeffs : List F
  rhs : List F

section Algorithm

variable [Zero F] [Sub F] [Mul F]

def Row.coeff (row : Row F) (col : Nat) : F := row.coeffs.getD col 0

def Row.entry (row : Row F) (index : Nat) : F := row.rhs.getD index 0

def Row.scale (row : Row F) (factor : F) : Row F :=
  { coeffs := row.coeffs.map (· * factor), rhs := row.rhs.map (· * factor) }

def Row.subScaled (row pivot : Row F) (factor : F) : Row F :=
  { coeffs := List.zipWith (fun value lead => value - factor * lead) row.coeffs pivot.coeffs
    rhs := List.zipWith (fun value lead => value - factor * lead) row.rhs pivot.rhs }

variable [Inv F] [DecidableEq F]

-- Cancel the entry of `row` in column `col` with a pivot row that is 1 there.
def Row.clear (row pivot : Row F) (col : Nat) : Row F :=
  if row.coeff col = 0 then row else row.subScaled pivot (row.coeff col)

-- The first row that is nonzero in `col`, swapped with the first remaining row.
def takePivot (col : Nat) (rest : List (Row F)) : Option (Row F × List (Row F)) :=
  match rest.span (fun row => row.coeff col = 0) with
  | (_, []) => none
  | ([], pivot :: later) => some (pivot, later)
  | (first :: skipped, pivot :: later) => some (pivot, skipped ++ first :: later)

structure Progress (F : Type) where
  pivots : List (Nat × Row F)
  rest : List (Row F)

def Progress.column (progress : Progress F) (col : Nat) : Progress F :=
  match takePivot col progress.rest with
  | none => progress
  | some (found, rest) =>
      let pivot := found.scale (found.coeff col)⁻¹
      { pivots := progress.pivots.map (fun (other, row) => (other, row.clear pivot col)) ++
          [(col, pivot)]
        rest := rest.map (fun row => row.clear pivot col) }

def eliminate (rows : List (Row F)) (columns : Nat) : Progress F :=
  (List.range columns).foldl Progress.column { pivots := [], rest := rows }

-- Pivot rows whose non-pivot columns are all zero determine their unknown.
def Progress.solutions (progress : Progress F) (columns : Nat) : List (Nat × List F) :=
  progress.pivots.filterMap fun (col, row) =>
    if (List.range columns).all (fun other =>
        other ∈ progress.pivots.map Prod.fst ∨ row.coeff other = 0) then
      some (col, row.rhs)
    else none

def solve (rows : List (Row F)) (columns : Nat) : List (Nat × List F) :=
  (eliminate rows columns).solutions columns

end Algorithm

variable [Field F]

def Row.Shaped (columns width : Nat) (row : Row F) : Prop :=
  row.coeffs.length = columns ∧ row.rhs.length = width

-- The row's linear functional applied to an assignment of the unknowns.
def Row.dot (columns : Nat) (row : Row F) (x : Nat → F) : F :=
  ∑ col ∈ Finset.range columns, row.coeff col * x col

def Row.Holds (columns width : Nat) (x : Nat → Nat → F) (row : Row F) : Prop :=
  ∀ index < width, row.dot columns (fun col => x col index) = row.entry index

def Row.Blank (row : Row F) : Prop := ∀ col, row.coeff col = 0

@[simp] theorem Row.coeff_scale (row : Row F) (factor : F) (col : Nat) :
    (row.scale factor).coeff col = row.coeff col * factor := by
  simp only [Row.coeff, Row.scale, List.getD_eq_getElem?_getD, List.getElem?_map]
  cases row.coeffs[col]? <;> simp

@[simp] theorem Row.entry_scale (row : Row F) (factor : F) (index : Nat) :
    (row.scale factor).entry index = row.entry index * factor := by
  simp only [Row.entry, Row.scale, List.getD_eq_getElem?_getD, List.getElem?_map]
  cases row.rhs[index]? <;> simp

theorem getD_zipWith (left right : List F) (factor : F) (index : Nat)
    (same : left.length = right.length) :
    (List.zipWith (fun value lead => value - factor * lead) left right).getD index 0 =
      left.getD index 0 - factor * right.getD index 0 := by
  by_cases within : index < left.length
  · have other : index < right.length := by omega
    simp [List.getD_eq_getElem?_getD, within, other]
  · have other : ¬ index < right.length := by omega
    simp [List.getD_eq_getElem?_getD, within, other]

theorem Row.coeff_subScaled {columns width : Nat} {row pivot : Row F} (factor : F) (col : Nat)
    (left : row.Shaped columns width) (right : pivot.Shaped columns width) :
    (row.subScaled pivot factor).coeff col = row.coeff col - factor * pivot.coeff col :=
  getD_zipWith _ _ factor col (left.1.trans right.1.symm)

theorem Row.entry_subScaled {columns width : Nat} {row pivot : Row F} (factor : F) (index : Nat)
    (left : row.Shaped columns width) (right : pivot.Shaped columns width) :
    (row.subScaled pivot factor).entry index = row.entry index - factor * pivot.entry index :=
  getD_zipWith _ _ factor index (left.2.trans right.2.symm)

theorem Row.scale_shaped {columns width : Nat} {row : Row F} (factor : F)
    (shaped : row.Shaped columns width) : (row.scale factor).Shaped columns width := by
  simpa [Row.Shaped, Row.scale] using shaped

theorem Row.dot_scale (columns : Nat) (row : Row F) (factor : F) (x : Nat → F) :
    (row.scale factor).dot columns x = row.dot columns x * factor := by
  simp only [Row.dot, Row.coeff_scale, Finset.sum_mul]
  exact Finset.sum_congr rfl (fun col _ => by ring)

theorem Row.scale_holds {columns width : Nat} {x : Nat → Nat → F} {row : Row F} (factor : F)
    (holds : row.Holds columns width x) : (row.scale factor).Holds columns width x := by
  intro index within
  rw [Row.dot_scale, Row.entry_scale, holds index within]

variable [DecidableEq F]

theorem Row.clear_shaped {columns width : Nat} {row pivot : Row F} (col : Nat)
    (left : row.Shaped columns width) (right : pivot.Shaped columns width) :
    (row.clear pivot col).Shaped columns width := by
  unfold Row.clear
  split_ifs
  · exact left
  · simp [Row.Shaped, Row.subScaled, left.1, left.2, right.1, right.2]

theorem Row.coeff_clear {columns width : Nat} {row pivot : Row F} (col other : Nat)
    (left : row.Shaped columns width) (right : pivot.Shaped columns width) :
    (row.clear pivot col).coeff other = row.coeff other - row.coeff col * pivot.coeff other := by
  unfold Row.clear
  split_ifs with zero
  · simp [zero]
  · exact Row.coeff_subScaled _ other left right

theorem Row.entry_clear {columns width : Nat} {row pivot : Row F} (col index : Nat)
    (left : row.Shaped columns width) (right : pivot.Shaped columns width) :
    (row.clear pivot col).entry index = row.entry index - row.coeff col * pivot.entry index := by
  unfold Row.clear
  split_ifs with zero
  · simp [zero]
  · exact Row.entry_subScaled _ index left right

theorem Row.dot_clear {columns width : Nat} {row pivot : Row F} (col : Nat) (x : Nat → F)
    (left : row.Shaped columns width) (right : pivot.Shaped columns width) :
    (row.clear pivot col).dot columns x =
      row.dot columns x - row.coeff col * pivot.dot columns x := by
  simp only [Row.dot, Row.coeff_clear col _ left right, Finset.mul_sum, ← Finset.sum_sub_distrib]
  exact Finset.sum_congr rfl (fun other _ => by ring)

theorem Row.clear_holds {columns width : Nat} {x : Nat → Nat → F} {row pivot : Row F} (col : Nat)
    (left : row.Shaped columns width) (right : pivot.Shaped columns width)
    (holds : row.Holds columns width x) (pivotHolds : pivot.Holds columns width x) :
    (row.clear pivot col).Holds columns width x := by
  intro index within
  rw [Row.dot_clear col _ left right, Row.entry_clear col index left right, holds index within,
    pivotHolds index within]

theorem takePivot_none (col : Nat) (rest : List (Row F)) (none : takePivot col rest = none) :
    ∀ row ∈ rest, row.coeff col = 0 := by
  have split := List.span_eq_takeWhile_dropWhile
    (p := fun row : Row F => decide (row.coeff col = 0)) (l := rest)
  have tail : rest.dropWhile (fun row => decide (row.coeff col = 0)) = [] := by
    unfold takePivot at none
    rw [split] at none
    split at none <;> simp_all
  intro row member
  simpa using List.dropWhile_eq_nil_iff.mp tail row member

theorem takePivot_some (col : Nat) (rest later : List (Row F)) (pivot : Row F)
    (found : takePivot col rest = some (pivot, later)) :
    pivot.coeff col ≠ 0 ∧ rest.Perm (pivot :: later) := by
  have split := List.span_eq_takeWhile_dropWhile
    (p := fun row : Row F => decide (row.coeff col = 0)) (l := rest)
  have whole := List.takeWhile_append_dropWhile
    (p := fun row : Row F => decide (row.coeff col = 0)) (l := rest)
  unfold takePivot at found
  rw [split] at found
  have nonzero (head : Row F) (tail : List (Row F))
      (dropped : rest.dropWhile (fun row => decide (row.coeff col = 0)) = head :: tail) :
      head.coeff col ≠ 0 := by
    have head := List.head_dropWhile_not (fun row : Row F => decide (row.coeff col = 0))
      (show rest.dropWhile _ ≠ [] by simp [dropped])
    simpa [dropped] using head
  split at found
  · simp at found
  next head tail pair =>
    obtain ⟨rfl, rfl⟩ := by simpa using found
    simp only [Prod.mk.injEq] at pair
    rw [pair.1, pair.2] at whole
    exact ⟨nonzero _ _ pair.2, by simp [← whole]⟩
  next first skipped head tail pair =>
    obtain ⟨rfl, rfl⟩ := by simpa using found
    simp only [Prod.mk.injEq] at pair
    rw [pair.1, pair.2] at whole
    refine ⟨nonzero _ _ pair.2, ?_⟩
    rw [← whole]
    exact List.perm_middle.trans (List.Perm.cons _ List.perm_middle.symm)

-- State of the run once the columns below `col` are processed: a pivot column is 1 in its own row
-- and 0 in all others, and the remaining rows are 0 so far.
structure Progress.Reduced (columns width col : Nat) (progress : Progress F) : Prop where
  shapedPivots : ∀ pivot ∈ progress.pivots, pivot.2.Shaped columns width
  shapedRest : ∀ row ∈ progress.rest, row.Shaped columns width
  increasing : (progress.pivots.map Prod.fst).Pairwise (· < ·)
  below : ∀ pivot ∈ progress.pivots, pivot.1 < col
  lead : ∀ pivot ∈ progress.pivots, pivot.2.coeff pivot.1 = 1
  unit : ∀ pivot ∈ progress.pivots, ∀ other ∈ progress.pivots,
    other.1 ≠ pivot.1 → other.2.coeff pivot.1 = 0
  cleared : ∀ row ∈ progress.rest, ∀ other < col, row.coeff other = 0

/-- What one column step does: nothing, or pivot on a remaining row. -/
theorem Progress.column_cases (progress : Progress F) (col : Nat) :
    (progress.column col = progress ∧ ∀ row ∈ progress.rest, row.coeff col = 0) ∨
    ∃ found later, found.coeff col ≠ 0 ∧ progress.rest.Perm (found :: later) ∧
      progress.column col =
        { pivots := progress.pivots.map
            (fun other => (other.1, other.2.clear (found.scale (found.coeff col)⁻¹) col)) ++
              [(col, found.scale (found.coeff col)⁻¹)]
          rest := later.map (fun row => row.clear (found.scale (found.coeff col)⁻¹) col) } := by
  unfold Progress.column
  cases result : takePivot col progress.rest with
  | none => exact .inl ⟨rfl, takePivot_none col progress.rest result⟩
  | some pair =>
    obtain ⟨nonzero, perm⟩ := takePivot_some col progress.rest pair.2 pair.1 result
    exact .inr ⟨pair.1, pair.2, nonzero, perm, rfl⟩

theorem Progress.column_reduced {columns width col : Nat} {progress : Progress F}
    (reduced : progress.Reduced columns width col) :
    (progress.column col).Reduced columns width (col + 1) := by
  obtain ⟨same, zero⟩ | ⟨found, later, nonzero, perm, result⟩ := progress.column_cases col
  · rw [same]
    refine ⟨reduced.shapedPivots, reduced.shapedRest, reduced.increasing,
      fun pivot member => Nat.lt_succ_of_lt (reduced.below pivot member), reduced.lead,
      reduced.unit, ?_⟩
    intro row member other bound
    rcases Nat.lt_succ_iff_lt_or_eq.mp bound with less | rfl
    · exact reduced.cleared row member other less
    · exact zero row member
  · have inside (row : Row F) (member : row ∈ found :: later) : row ∈ progress.rest :=
      perm.mem_iff.mpr member
    have foundShaped := reduced.shapedRest found (inside found (by simp))
    have pivotShaped : (found.scale (found.coeff col)⁻¹).Shaped columns width :=
      Row.scale_shaped _ foundShaped
    have pivotLead : (found.scale (found.coeff col)⁻¹).coeff col = 1 := by
      rw [Row.coeff_scale, mul_inv_cancel₀ nonzero]
    have pivotZero (other : Nat) (less : other < col) :
        (found.scale (found.coeff col)⁻¹).coeff other = 0 := by
      rw [Row.coeff_scale, reduced.cleared found (inside found (by simp)) other less, zero_mul]
    generalize found.scale (found.coeff col)⁻¹ = pivot at *
    rw [result]
    constructor <;> simp only [List.mem_append, List.mem_map, List.mem_singleton]
    case shapedPivots =>
      rintro _ (⟨old, member, rfl⟩ | rfl)
      · exact Row.clear_shaped col (reduced.shapedPivots old member) pivotShaped
      · exact pivotShaped
    case shapedRest =>
      rintro _ ⟨row, member, rfl⟩
      exact Row.clear_shaped col (reduced.shapedRest row (inside row (by simp [member]))) pivotShaped
    case increasing =>
      rw [List.map_append, List.map_map, List.pairwise_append]
      refine ⟨reduced.increasing, by simp, ?_⟩
      intro low member high last
      obtain ⟨old, present, rfl⟩ := List.mem_map.mp member
      obtain rfl : high = col := by simpa using last
      exact reduced.below old present
    case below =>
      rintro _ (⟨old, member, rfl⟩ | rfl)
      · exact Nat.lt_succ_of_lt (reduced.below old member)
      · exact Nat.lt_succ_self _
    case lead =>
      rintro _ (⟨old, member, rfl⟩ | rfl)
      · rw [Row.coeff_clear col _ (reduced.shapedPivots old member) pivotShaped,
          reduced.lead old member, pivotZero old.1 (reduced.below old member)]
        ring
      · exact pivotLead
    case unit =>
      rintro _ (⟨old, member, rfl⟩ | rfl) _ (⟨other, present, rfl⟩ | rfl) distinct
      · rw [Row.coeff_clear col _ (reduced.shapedPivots other present) pivotShaped,
          reduced.unit old member other present distinct, pivotZero old.1 (reduced.below old member)]
        ring
      · exact pivotZero old.1 (reduced.below old member)
      · rw [Row.coeff_clear col _ (reduced.shapedPivots other present) pivotShaped, pivotLead]
        ring
      · exact absurd rfl distinct
    case cleared =>
      rintro _ ⟨row, member, rfl⟩ other bound
      rw [Row.coeff_clear col _ (reduced.shapedRest row (inside row (by simp [member]))) pivotShaped]
      rcases Nat.lt_succ_iff_lt_or_eq.mp bound with less | rfl
      · rw [reduced.cleared row (inside row (by simp [member])) other less, pivotZero other less]
        ring
      · rw [pivotLead]
        ring

-- Rows that are satisfied by `x`; blank rows are never touched and need not be.
structure Progress.Sound (columns width : Nat) (x : Nat → Nat → F) (progress : Progress F) : Prop where
  pivots : ∀ pivot ∈ progress.pivots, pivot.2.Holds columns width x
  rest : ∀ row ∈ progress.rest, row.Holds columns width x ∨ row.Blank

theorem Progress.column_sound {columns width col : Nat} {x : Nat → Nat → F} {progress : Progress F}
    (reduced : progress.Reduced columns width col) (sound : progress.Sound columns width x) :
    (progress.column col).Sound columns width x := by
  obtain ⟨same, -⟩ | ⟨found, later, nonzero, perm, result⟩ := progress.column_cases col
  · rwa [same]
  · have inside (row : Row F) (member : row ∈ found :: later) : row ∈ progress.rest :=
      perm.mem_iff.mpr member
    have foundHolds : found.Holds columns width x :=
      (sound.rest found (inside found (by simp))).resolve_right (fun blank => nonzero (blank col))
    have pivotHolds := Row.scale_holds (found.coeff col)⁻¹ foundHolds
    have pivotShaped := Row.scale_shaped (found.coeff col)⁻¹
      (reduced.shapedRest found (inside found (by simp)))
    rw [result]
    constructor <;> simp only [List.mem_append, List.mem_map, List.mem_singleton]
    · rintro _ (⟨old, member, rfl⟩ | rfl)
      · exact Row.clear_holds col (reduced.shapedPivots old member) pivotShaped
          (sound.pivots old member) pivotHolds
      · exact pivotHolds
    · rintro _ ⟨row, member, rfl⟩
      rcases sound.rest row (inside row (by simp [member])) with holds | blank
      · exact .inl (Row.clear_holds col (reduced.shapedRest row (inside row (by simp [member])))
          pivotShaped holds pivotHolds)
      · right
        rwa [Row.clear, if_pos (blank col)]

-- The homogeneous solutions of the rows of a run.
def Progress.Kernel (columns : Nat) (progress : Progress F) (x : Nat → F) : Prop :=
  (∀ pivot ∈ progress.pivots, pivot.2.dot columns x = 0) ∧
    ∀ row ∈ progress.rest, row.dot columns x = 0

theorem Progress.column_kernel {columns width col : Nat} {progress : Progress F}
    (reduced : progress.Reduced columns width col) (x : Nat → F) :
    (progress.column col).Kernel columns x ↔ progress.Kernel columns x := by
  obtain ⟨same, -⟩ | ⟨found, later, nonzero, perm, result⟩ := progress.column_cases col
  · rw [same]
  · have inside (row : Row F) (member : row ∈ found :: later) : row ∈ progress.rest :=
      perm.mem_iff.mpr member
    have pivotShaped := Row.scale_shaped (found.coeff col)⁻¹
      (reduced.shapedRest found (inside found (by simp)))
    have pivotDot : (found.scale (found.coeff col)⁻¹).dot columns x = 0 ↔
        found.dot columns x = 0 := by
      rw [Row.dot_scale, mul_eq_zero, or_iff_left (inv_ne_zero nonzero)]
    have rowDot (row : Row F) (shaped : row.Shaped columns width)
        (zero : found.dot columns x = 0) :
        (row.clear (found.scale (found.coeff col)⁻¹) col).dot columns x = row.dot columns x := by
      rw [Row.dot_clear col x shaped pivotShaped, pivotDot.mpr zero, mul_zero, sub_zero]
    rw [result]
    simp only [Progress.Kernel, List.mem_append, List.mem_map, List.mem_singleton]
    constructor
    · rintro ⟨pivots, rest⟩
      have pivotZero := pivots _ (.inr rfl)
      have zero := pivotDot.mp pivotZero
      refine ⟨fun old member => ?_, fun row member => ?_⟩
      · rw [← rowDot old.2 (reduced.shapedPivots old member) zero]
        have cleared := pivots _ (.inl ⟨old, member, rfl⟩)
        exact cleared
      · rcases List.mem_cons.mp (perm.mem_iff.mp member) with rfl | other
        · exact zero
        · rw [← rowDot row (reduced.shapedRest row member) zero]
          exact rest _ ⟨row, other, rfl⟩
    · rintro ⟨pivots, rest⟩
      have zero := rest found (inside found (by simp))
      constructor
      · rintro _ (⟨old, member, rfl⟩ | rfl)
        · rw [rowDot old.2 (reduced.shapedPivots old member) zero]
          exact pivots old member
        · exact pivotDot.mpr zero
      · rintro _ ⟨row, member, rfl⟩
        rw [rowDot row (reduced.shapedRest row (inside row (by simp [member]))) zero]
        exact rest row (inside row (by simp [member]))

theorem eliminate_succ (rows : List (Row F)) (columns : Nat) :
    eliminate rows (columns + 1) = (eliminate rows columns).column columns := by
  rw [eliminate, List.range_succ, List.foldl_append]
  rfl

theorem eliminate_reduced {columns width : Nat} {rows : List (Row F)}
    (shaped : ∀ row ∈ rows, row.Shaped columns width) (processed : Nat) :
    (eliminate rows processed).Reduced columns width processed := by
  induction processed with
  | zero => exact ⟨by simp [eliminate], shaped, by simp [eliminate], by simp [eliminate],
      by simp [eliminate], by simp [eliminate], by simp⟩
  | succ processed ih =>
    rw [eliminate_succ]
    exact Progress.column_reduced ih

theorem eliminate_sound {columns width : Nat} {x : Nat → Nat → F} {rows : List (Row F)}
    (shaped : ∀ row ∈ rows, row.Shaped columns width)
    (holds : ∀ row ∈ rows, row.Holds columns width x ∨ row.Blank) (processed : Nat) :
    (eliminate rows processed).Sound columns width x := by
  induction processed with
  | zero => exact ⟨by simp [eliminate], holds⟩
  | succ processed ih =>
    rw [eliminate_succ]
    exact Progress.column_sound (eliminate_reduced shaped processed) ih

theorem eliminate_kernel {columns width : Nat} {rows : List (Row F)}
    (shaped : ∀ row ∈ rows, row.Shaped columns width) (x : Nat → F) (processed : Nat) :
    (eliminate rows processed).Kernel columns x ↔ ∀ row ∈ rows, row.dot columns x = 0 := by
  induction processed with
  | zero => simp [eliminate, Progress.Kernel]
  | succ processed ih =>
    rw [eliminate_succ, Progress.column_kernel (eliminate_reduced shaped processed), ih]

theorem mem_solutions (progress : Progress F) (columns col : Nat) (value : List F) :
    (col, value) ∈ progress.solutions columns ↔ ∃ row, (col, row) ∈ progress.pivots ∧
      value = row.rhs ∧ ∀ other < columns,
        other ∈ progress.pivots.map Prod.fst ∨ row.coeff other = 0 := by
  simp only [Progress.solutions, List.mem_filterMap, Prod.exists, List.all_eq_true,
    List.mem_range, decide_eq_true_eq]
  constructor
  · rintro ⟨col', row, member, result⟩
    split_ifs at result with determined
    obtain ⟨rfl, rfl⟩ := by simpa using result
    exact ⟨row, member, rfl, determined⟩
  · rintro ⟨row, member, rfl, determined⟩
    exact ⟨col, row, member, by rw [if_pos determined]⟩

omit [DecidableEq F] in
/-- A determined pivot row has a single nonzero coefficient, in its own column. -/
theorem Progress.dot_of_determined {columns width : Nat} {progress : Progress F}
    (reduced : progress.Reduced columns width columns) {col : Nat} {row : Row F}
    (member : (col, row) ∈ progress.pivots)
    (determined : ∀ other < columns, other ∈ progress.pivots.map Prod.fst ∨ row.coeff other = 0)
    (x : Nat → F) : row.dot columns x = x col := by
  have others (other : Nat) (bound : other ∈ Finset.range columns) (distinct : other ≠ col) :
      row.coeff other * x other = 0 := by
    rcases determined other (by simpa using bound) with pivot | zero
    · obtain ⟨found, present, rfl⟩ := List.mem_map.mp pivot
      rw [reduced.unit found present (col, row) member (Ne.symm distinct), zero_mul]
    · rw [zero, zero_mul]
  rw [Row.dot, Finset.sum_eq_single col others]
  · rw [show row.coeff col = 1 from reduced.lead (col, row) member, one_mul]
  · intro outside
    exact absurd (Finset.mem_range.mpr (reduced.below (col, row) member)) outside

/-- Every returned vector is the value of its unknown in each assignment satisfying the rows. -/
theorem solve_sound {columns width : Nat} {x : Nat → Nat → F} {rows : List (Row F)}
    (shaped : ∀ row ∈ rows, row.Shaped columns width)
    (holds : ∀ row ∈ rows, row.Holds columns width x ∨ row.Blank)
    {col : Nat} {value : List F} (solved : (col, value) ∈ solve rows columns) :
    col < columns ∧ value.length = width ∧ ∀ index < width, value.getD index 0 = x col index := by
  have reduced := eliminate_reduced shaped columns
  have sound := eliminate_sound shaped holds columns
  obtain ⟨row, member, rfl, determined⟩ := (mem_solutions _ _ _ _).mp solved
  refine ⟨reduced.below _ member, (reduced.shapedPivots _ member).2, fun index within => ?_⟩
  rw [← Progress.dot_of_determined reduced member determined (fun col => x col index)]
  exact (sound.pivots _ member index within).symm

theorem filterMap_fst_sublist {A B C : Type} (keep : A × B → Option (A × C))
    (same : ∀ pair result, keep pair = some result → result.1 = pair.1) (pairs : List (A × B)) :
    ((pairs.filterMap keep).map Prod.fst).Sublist (pairs.map Prod.fst) := by
  induction pairs with
  | nil => simp
  | cons head tail ih =>
    rw [List.filterMap_cons]
    cases kept : keep head with
    | none => exact ih.cons _
    | some result =>
      rw [List.map_cons, List.map_cons, same head result kept]
      exact ih.cons_cons _

/-- Solutions come in strictly increasing column order, so each column occurs at most once. -/
theorem solve_increasing {columns width : Nat} {rows : List (Row F)}
    (shaped : ∀ row ∈ rows, row.Shaped columns width) :
    ((solve rows columns).map Prod.fst).Pairwise (· < ·) := by
  refine (eliminate_reduced shaped columns).increasing.sublist (filterMap_fst_sublist _ ?_ _)
  rintro ⟨col, row⟩ result kept
  simp only at kept
  split_ifs at kept
  simpa using (congrArg Prod.fst (Option.some.inj kept)).symm

theorem find?_increasing {A : Type} (pairs : List (Nat × A))
    (increasing : (pairs.map Prod.fst).Pairwise (· < ·)) (pair : Nat × A) (member : pair ∈ pairs) :
    pairs.find? (fun other => other.1 = pair.1) = some pair := by
  induction pairs with
  | nil => simp at member
  | cons head tail ih =>
    rw [List.map_cons, List.pairwise_cons] at increasing
    rcases List.mem_cons.mp member with rfl | later
    · simp
    · have less := increasing.1 pair.1 (List.mem_map.mpr ⟨pair, later, rfl⟩)
      rw [List.find?_cons_of_neg (by simpa using less.ne)]
      exact ih increasing.2 later

-- The homogeneous solution that moves the free column `free` and follows it in every pivot.
def Progress.direction (progress : Progress F) (free col : Nat) : F :=
  if col = free then 1
  else match progress.pivots.find? (fun pivot => pivot.1 = col) with
    | some pivot => - pivot.2.coeff free
    | none => 0

omit [DecidableEq F] in
theorem Progress.direction_pivot {columns width : Nat} {progress : Progress F}
    (reduced : progress.Reduced columns width columns) {free : Nat}
    (unpivoted : free ∉ progress.pivots.map Prod.fst) {pivot : Nat × Row F}
    (member : pivot ∈ progress.pivots) :
    progress.direction free pivot.1 = - pivot.2.coeff free := by
  have distinct : pivot.1 ≠ free := fun same =>
    unpivoted (List.mem_map.mpr ⟨pivot, member, same⟩)
  simp [Progress.direction, distinct, find?_increasing _ reduced.increasing pivot member]

omit [DecidableEq F] in
theorem Progress.direction_kernel {columns width : Nat} {progress : Progress F}
    (reduced : progress.Reduced columns width columns) {free : Nat} (bound : free < columns)
    (unpivoted : free ∉ progress.pivots.map Prod.fst) :
    progress.Kernel columns (progress.direction free) := by
  constructor
  · intro pivot member
    have distinct : free ≠ pivot.1 := fun same =>
      unpivoted (List.mem_map.mpr ⟨pivot, member, same.symm⟩)
    have others (col : Nat) (_ : col ∈ Finset.range columns) (other : col ≠ free ∧ col ≠ pivot.1) :
        pivot.2.coeff col * progress.direction free col = 0 := by
      by_cases pivoted : col ∈ progress.pivots.map Prod.fst
      · obtain ⟨found, present, rfl⟩ := List.mem_map.mp pivoted
        rw [reduced.unit found present pivot member (Ne.symm other.2), zero_mul]
      · have absent : progress.pivots.find? (fun pivot => pivot.1 = col) = none := by
          refine List.find?_eq_none.mpr (fun found present => ?_)
          simpa using fun same => pivoted (List.mem_map.mpr ⟨found, present, same⟩)
        simp [Progress.direction, other.1, absent]
    rw [Row.dot, Finset.sum_eq_add free pivot.1 distinct others
      (fun outside => absurd (Finset.mem_range.mpr bound) outside)
      (fun outside => absurd (Finset.mem_range.mpr (reduced.below pivot member)) outside),
      Progress.direction_pivot reduced unpivoted member, reduced.lead pivot member]
    simp [Progress.direction]
  · intro row member
    exact Finset.sum_eq_zero (fun col inside => by
      rw [reduced.cleared row member col (Finset.mem_range.mp inside), zero_mul])

/-- A column is returned exactly when every homogeneous solution of the rows vanishes on it. -/
theorem mem_solve_iff {columns width : Nat} {rows : List (Row F)}
    (shaped : ∀ row ∈ rows, row.Shaped columns width) (col : Nat) :
    col ∈ (solve rows columns).map Prod.fst ↔
      col < columns ∧ ∀ x : Nat → F, (∀ row ∈ rows, row.dot columns x = 0) → x col = 0 := by
  have reduced := eliminate_reduced shaped columns
  have kernel (x : Nat → F) := eliminate_kernel shaped x columns
  constructor
  · intro solved
    obtain ⟨⟨_, value⟩, returned, rfl⟩ := List.mem_map.mp solved
    obtain ⟨row, member, -, determined⟩ := (mem_solutions _ _ _ _).mp returned
    refine ⟨reduced.below _ member, fun x homogeneous => ?_⟩
    rw [← Progress.dot_of_determined reduced member determined x]
    exact ((kernel x).mpr homogeneous).1 _ member
  · rintro ⟨bound, unique⟩
    have vanishes (free : Nat) (inside : free < columns)
        (unpivoted : free ∉ (eliminate rows columns).pivots.map Prod.fst) :
        (eliminate rows columns).direction free col = 0 :=
      unique _ ((kernel _).mp (Progress.direction_kernel reduced inside unpivoted))
    have pivoted : col ∈ (eliminate rows columns).pivots.map Prod.fst := by
      by_contra unpivoted
      simpa [Progress.direction] using vanishes col bound unpivoted
    obtain ⟨⟨_, row⟩, member, rfl⟩ := List.mem_map.mp pivoted
    refine List.mem_map.mpr ⟨_, (mem_solutions _ _ _ row.rhs).mpr ⟨row, member, rfl, ?_⟩, rfl⟩
    intro other inside
    by_contra undetermined
    rw [not_or] at undetermined
    have zero := vanishes other inside undetermined.1
    rw [Progress.direction_pivot reduced undetermined.1 member, neg_eq_zero] at zero
    exact undetermined.2 zero

/-- No more unknowns are solved than there are rows. -/
theorem solve_length_le (rows : List (Row F)) (columns : Nat) :
    (solve rows columns).length ≤ rows.length := by
  have total (processed : Nat) : (eliminate rows processed).pivots.length +
      (eliminate rows processed).rest.length = rows.length := by
    induction processed with
    | zero => exact Nat.zero_add _
    | succ processed ih =>
      rw [eliminate_succ]
      obtain ⟨same, -⟩ | ⟨found, later, -, perm, result⟩ :=
        (eliminate rows processed).column_cases processed
      · rw [same, ih]
      · have rest := perm.length_eq
        rw [List.length_cons] at rest
        rw [result]
        simp only [List.length_append, List.length_map, List.length_singleton]
        omega
  have kept : (solve rows columns).length ≤ (eliminate rows columns).pivots.length :=
    List.length_filterMap_le _ _
  have processed := total columns
  omega

end Elimination
