import BetterParsec.Fec.Equations

set_option autoImplicit false
set_option linter.all false

/-!
# Gaussian elimination

The loop of `gaussian_elim` over its two byte matrices, step by step the column
steps of the elimination, and what it returns for a consistent system.
-/

namespace BetterParsec

namespace GaussianElim

open Elimination

-- The two matrices, the row of each pivot column, and the row of the next pivot.
structure Matrices where
  coeffs : List (List UInt8)
  rhs : List (List UInt8)
  pivotRow : List (Option Nat)
  currentRow : Nat

def swapRows (rows : List (List UInt8)) (first second : Nat) : List (List UInt8) :=
  (rows.set first (rows.getD second [])).set second (rows.getD first [])

-- A row less the multiple of the pivot row.
def cancel (factor : UInt8) (row pivot : List UInt8) : List UInt8 :=
  if factor = 0 then row
  else List.zipWith (fun value lead => value ^^^ gfMul factor lead) row pivot

-- The pivot row `p` swapped up and scaled to 1, and its column cancelled in all other rows.
def Matrices.pivot (m : Matrices) (col p : Nat) : Matrices :=
  let coeffs := swapRows m.coeffs m.currentRow p
  let rhs := swapRows m.rhs m.currentRow p
  let invLead := gfInv ((coeffs.getD m.currentRow []).getD col 0)
  let coeffs := coeffs.modify m.currentRow (fun row => row.map (gfMul · invLead))
  let rhs := rhs.modify m.currentRow (fun row => row.map (gfMul · invLead))
  let pivotCoeffs := coeffs.getD m.currentRow []
  let pivotRhs := rhs.getD m.currentRow []
  { coeffs := coeffs.mapIdx (fun r row =>
      if r = m.currentRow then row else cancel (row.getD col 0) row pivotCoeffs)
    rhs := (coeffs.zip rhs).mapIdx (fun r rows =>
      if r = m.currentRow then rows.2 else cancel (rows.1.getD col 0) rows.2 pivotRhs)
    pivotRow := m.pivotRow.set col (some m.currentRow)
    currentRow := m.currentRow + 1 }

def Matrices.findPivot (m : Matrices) (col : Nat) : Option Nat :=
  (List.range' m.currentRow (m.coeffs.length - m.currentRow)).find?
    (fun r => (m.coeffs.getD r []).getD col 0 != 0)

-- The loop over the columns, which ends early behind the last row.
def Matrices.eliminate (m : Matrices) : List Nat → Matrices
  | [] => m
  | col :: cols =>
    match m.findPivot col with
    | none => m.eliminate cols
    | some p =>
      let m := m.pivot col p
      if m.currentRow ≥ m.coeffs.length then m else m.eliminate cols

def Matrices.collect (m : Matrices) (nUnknowns : Nat) : List (Nat × List UInt8) :=
  (List.range nUnknowns).filterMap (fun col =>
    (m.pivotRow.getD col none).bind (fun pr =>
      if ((List.range nUnknowns).filter (fun c => (m.pivotRow.getD c none).isNone)).all
          (fun c => (m.coeffs.getD pr []).getD c 0 == 0) then
        some (col, m.rhs.getD pr [])
      else none))

end GaussianElim

open GaussianElim in
def gaussianElimLoop (coeffs rhs : List (List UInt8)) (nUnknowns payloadLen : Nat) :
    List (Nat × List UInt8) :=
  if coeffs.length = 0 ∨ nUnknowns = 0 ∨ payloadLen = 0 then []
  else
    let m : Matrices := ⟨coeffs, rhs, List.replicate nUnknowns none, 0⟩
    (m.eliminate (List.range nUnknowns)).collect nUnknowns

namespace GaussianElim

open Elimination

section Rows

variable {row pivot : Row Gf256} {columns width : Nat}

def coeffBytes (row : Row Gf256) : List UInt8 := row.coeffs.map Gf256.byte

def rhsBytes (row : Row Gf256) : List UInt8 := row.rhs.map Gf256.byte

theorem byte_sub (a b : Gf256) : (a - b).byte = a.byte ^^^ b.byte := by
  rw [sub_eq_add_neg]
  rfl

theorem byte_inv (a : Gf256) (nonzero : a ≠ 0) : (a⁻¹).byte = gfInv a.byte := by
  have byte : a.byte ≠ 0 := fun zero => nonzero (Gf256.ext zero)
  change (if a.byte = 0 then (0 : Gf256) else ⟨gfInv a.byte⟩).byte = _
  rw [if_neg byte]

theorem coeffBytes_getD (row : Row Gf256) (col : Nat) :
    (coeffBytes row).getD col 0 = (row.coeff col).byte := by
  simp only [coeffBytes, Row.coeff, List.getD_eq_getElem?_getD, List.getElem?_map]
  cases row.coeffs[col]? <;> rfl

theorem scaled_bytes (values : List Gf256) (factor : Gf256) :
    (values.map (· * factor)).map Gf256.byte =
      (values.map Gf256.byte).map (gfMul · factor.byte) := by
  rw [List.map_map, List.map_map]
  rfl

theorem cancelled_bytes (values leads : List Gf256) (factor : Gf256) :
    (List.zipWith (fun value lead => value - factor * lead) values leads).map Gf256.byte =
      List.zipWith (fun value lead => value ^^^ gfMul factor.byte lead) (values.map Gf256.byte)
        (leads.map Gf256.byte) := by
  rw [List.map_zipWith, List.zipWith_map]
  simp only [byte_sub, Gf256.byte_mul]

theorem byte_eq_zero (a : Gf256) : a.byte = 0 ↔ a = 0 :=
  ⟨fun zero => Gf256.ext zero, fun zero => by rw [zero]; rfl⟩

theorem clear_coeffBytes (row pivot : Row Gf256) (col : Nat) :
    coeffBytes (row.clear pivot col) =
      cancel (row.coeff col).byte (coeffBytes row) (coeffBytes pivot) := by
  unfold Row.clear cancel
  simp only [byte_eq_zero]
  split_ifs
  · rfl
  · exact cancelled_bytes _ _ _

theorem clear_rhsBytes (row pivot : Row Gf256) (col : Nat) :
    rhsBytes (row.clear pivot col) =
      cancel (row.coeff col).byte (rhsBytes row) (rhsBytes pivot) := by
  unfold Row.clear cancel
  simp only [byte_eq_zero]
  split_ifs
  · rfl
  · exact cancelled_bytes _ _ _

end Rows

section Lists

variable {A : Type}

theorem getD_middle (before after : List A) (x d : A) :
    (before ++ x :: after).getD before.length d = x := by
  rw [List.getD_eq_getElem?_getD, List.getElem?_append_right le_rfl, Nat.sub_self]
  rfl

theorem set_middle (before after : List A) (x y : A) :
    (before ++ x :: after).set before.length y = before ++ y :: after := by
  rw [List.set_append_right _ _ le_rfl, Nat.sub_self]
  rfl

theorem swapRows_self (before after : List (List UInt8)) (x : List UInt8) :
    swapRows (before ++ x :: after) before.length before.length = before ++ x :: after := by
  rw [swapRows, getD_middle, set_middle, set_middle]

theorem swapRows_apart (before middle after : List (List UInt8)) (x y : List UInt8) :
    swapRows (before ++ x :: (middle ++ y :: after)) before.length
        (before.length + (middle.length + 1)) =
      before ++ y :: (middle ++ x :: after) := by
  have second (first : List UInt8) : before ++ first :: (middle ++ y :: after) =
      (before ++ first :: middle) ++ y :: after := by
    rw [List.append_assoc]
    rfl
  have index (first : List UInt8) :
      before.length + (middle.length + 1) = (before ++ first :: middle).length := by
    rw [List.length_append]
    rfl
  rw [swapRows, getD_middle]
  nth_rewrite 2 [second x]
  rw [index x, getD_middle, set_middle, second y, ← index x, index y, set_middle,
    List.append_assoc]
  rfl

theorem modify_middle (f : A → A) (before after : List A) (x : A) :
    (before ++ x :: after).modify before.length f = before ++ f x :: after := by
  induction before with
  | nil => rfl
  | cons head tail ih =>
    rw [List.cons_append, List.length_cons, List.modify_succ_cons, ih]
    rfl

-- All entries but one are mapped alike.
theorem mapIdx_except {B : Type} (f g : A → B) (before after : List A) (x : A) :
    (before ++ x :: after).mapIdx (fun r row => if r = before.length then g row else f row) =
      before.map f ++ g x :: after.map f := by
  rw [List.mapIdx_eq_iff]
  intro r
  have length : (before.map f).length = before.length := List.length_map f
  rcases Nat.lt_trichotomy r before.length with earlier | rfl | later
  · rw [List.getElem?_append_left (length ▸ earlier), List.getElem?_append_left earlier,
      List.getElem?_map]
    simp only [if_neg earlier.ne]
  · rw [List.getElem?_append_right length.le, List.getElem?_append_right le_rfl, length,
      Nat.sub_self]
    simp only [List.getElem?_cons_zero, Option.map_some, if_true]
  · obtain ⟨index, rfl⟩ := Nat.exists_eq_add_of_lt later
    rw [List.getElem?_append_right (by omega), List.getElem?_append_right (by omega), length,
      show before.length + index + 1 - before.length = index + 1 by omega]
    simp only [List.getElem?_cons_succ, List.getElem?_map, if_neg later.ne']

end Lists

section Steps

variable {columns width col : Nat} {m : Matrices} {progress : Progress Gf256}

-- The remaining rows: none to pivot on, or the ones skipped in front of the first.
theorem rest_cases (rest : List (Row Gf256)) (col : Nat) :
    (∀ row ∈ rest, row.coeff col = 0) ∨
      ∃ (skipped : List (Row Gf256)) (found : Row Gf256) (later : List (Row Gf256)),
        rest = skipped ++ found :: later ∧
          (∀ row ∈ skipped, row.coeff col = 0) ∧ found.coeff col ≠ 0 := by
  induction rest with
  | nil => exact .inl (fun row member => (nomatch member))
  | cons head tail ih =>
    by_cases zero : head.coeff col = 0
    · rcases ih with all | ⟨skipped, found, later, rfl, zeros, nonzero⟩
      · exact .inl (List.forall_mem_cons.mpr ⟨zero, all⟩)
      · exact .inr ⟨head :: skipped, found, later, rfl, List.forall_mem_cons.mpr ⟨zero, zeros⟩,
          nonzero⟩
    · exact .inr ⟨[], head, tail, rfl, fun row member => (nomatch member), zero⟩

theorem takePivot_split {skipped later : List (Row Gf256)} {found : Row Gf256}
    (zeros : ∀ row ∈ skipped, row.coeff col = 0) (nonzero : found.coeff col ≠ 0) :
    takePivot col (skipped ++ found :: later) = some (found,
      match skipped with
      | [] => later
      | first :: skipped => skipped ++ first :: later) := by
  have split : (skipped ++ found :: later).span (fun row => decide (row.coeff col = 0)) =
      (skipped, found :: later) := by
    rw [List.span_eq_takeWhile_dropWhile, List.takeWhile_append_of_pos (by simpa using zeros),
      List.dropWhile_append_of_pos (by simpa using zeros), List.takeWhile_cons_of_neg (by simpa),
      List.dropWhile_cons_of_neg (by simpa), List.append_nil]
  unfold takePivot
  rw [split]
  cases skipped <;> rfl

theorem takePivot_zeros {rest : List (Row Gf256)} (zeros : ∀ row ∈ rest, row.coeff col = 0) :
    takePivot col rest = none := by
  cases found : takePivot col rest with
  | none => rfl
  | some pair =>
    obtain ⟨nonzero, perm⟩ := takePivot_some col rest pair.2 pair.1 found
    exact absurd (zeros pair.1 (perm.mem_iff.mpr List.mem_cons_self)) nonzero

-- The matrices hold the pivot rows in front of the remaining ones.
structure Mirrors (columns : Nat) (m : Matrices) (progress : Progress Gf256) : Prop where
  coeffs : m.coeffs = (progress.pivots.map Prod.snd ++ progress.rest).map coeffBytes
  rhs : m.rhs = (progress.pivots.map Prod.snd ++ progress.rest).map rhsBytes
  currentRow : m.currentRow = progress.pivots.length
  length : m.pivotRow.length = columns
  pivotRow : ∀ col r, m.pivotRow.getD col none = some r ↔
    (progress.pivots.map Prod.fst)[r]? = some col

theorem Mirrors.row_getD (mirrors : Mirrors columns m progress) (r : Nat) :
    (m.coeffs.getD r []).getD col 0 =
      (((progress.pivots.map Prod.snd ++ progress.rest)[r]?.map (fun row : Row Gf256 => row.coeff col)).getD
        0).byte := by
  rw [mirrors.coeffs, List.getD_eq_getElem?_getD (i := r), List.getElem?_map]
  cases (progress.pivots.map Prod.snd ++ progress.rest)[r]? with
  | none => rfl
  | some row => exact coeffBytes_getD row col

theorem Mirrors.findPivot_none (mirrors : Mirrors columns m progress)
    (zeros : ∀ row ∈ progress.rest, row.coeff col = 0) : m.findPivot col = none := by
  unfold Matrices.findPivot
  rw [List.find?_eq_none]
  intro r member
  have from_rest : progress.pivots.length ≤ r := by
    rw [← mirrors.currentRow]
    exact (List.mem_range'_1.mp member).1
  rw [mirrors.row_getD, List.getElem?_append_right (by rwa [List.length_map])]
  cases found : progress.rest[r - (progress.pivots.map Prod.snd).length]? with
  | none => exact Bool.false_ne_true
  | some row =>
    rw [Option.map_some, Option.getD_some, zeros row (List.mem_of_getElem? found)]
    decide

theorem Mirrors.findPivot_some (mirrors : Mirrors columns m progress)
    {skipped later : List (Row Gf256)} {found : Row Gf256}
    (rest : progress.rest = skipped ++ found :: later)
    (zeros : ∀ row ∈ skipped, row.coeff col = 0) (nonzero : found.coeff col ≠ 0) :
    m.findPivot col = some (progress.pivots.length + skipped.length) := by
  have length : m.coeffs.length = progress.pivots.length + (skipped.length + (later.length + 1)) := by
    rw [mirrors.coeffs, rest]
    simp only [List.length_map, List.length_append, List.length_cons]
  unfold Matrices.findPivot
  rw [List.find?_range'_eq_some, mirrors.currentRow, length]
  have row (index : Nat) : (progress.pivots.map Prod.snd ++ progress.rest)[
      progress.pivots.length + index]? = progress.rest[index]? := by
    rw [List.getElem?_append_right (by rw [List.length_map]; omega), List.length_map,
      Nat.add_sub_cancel_left]
  refine ⟨?_, ?_, ?_⟩
  · rw [mirrors.row_getD, row, rest, List.getElem?_append_right le_rfl, Nat.sub_self]
    simpa [byte_eq_zero] using nonzero
  · rw [List.mem_range'_1]
    omega
  · intro r low high
    obtain ⟨index, rfl⟩ := Nat.exists_eq_add_of_le low
    have small : index < skipped.length := by omega
    rw [mirrors.row_getD, row, rest, List.getElem?_append_left small,
      List.getElem?_eq_getElem small, Option.map_some, Option.getD_some,
      zeros _ (List.getElem_mem small)]
    decide

-- The rows behind the pivot once it is swapped up.
def behind : List (Row Gf256) → List (Row Gf256) → List (Row Gf256)
  | [], later => later
  | first :: skipped, later => skipped ++ first :: later

theorem column_split {skipped later : List (Row Gf256)} {found : Row Gf256}
    (rest : progress.rest = skipped ++ found :: later)
    (zeros : ∀ row ∈ skipped, row.coeff col = 0) (nonzero : found.coeff col ≠ 0) :
    progress.column col =
      { pivots := progress.pivots.map
          (fun pivot => (pivot.1, pivot.2.clear (found.scale (found.coeff col)⁻¹) col)) ++
            [(col, found.scale (found.coeff col)⁻¹)]
        rest := (behind skipped later).map
          (fun row => row.clear (found.scale (found.coeff col)⁻¹) col) } := by
  unfold Progress.column
  rw [rest, takePivot_split zeros nonzero]
  cases skipped <;> rfl

theorem swapRows_rows (bytes : Row Gf256 → List UInt8) (before skipped later : List (Row Gf256))
    (found : Row Gf256) :
    swapRows ((before ++ (skipped ++ found :: later)).map bytes) before.length
        (before.length + skipped.length) =
      (before ++ found :: behind skipped later).map bytes := by
  have length : before.length = (before.map bytes).length := (List.length_map bytes).symm
  have rows : (before ++ (skipped ++ found :: later)).map bytes =
      before.map bytes ++ (skipped.map bytes ++ bytes found :: later.map bytes) := by
    rw [List.map_append, List.map_append, List.map_cons]
  rw [rows, length, List.map_append, List.map_cons]
  cases skipped with
  | nil => exact swapRows_self _ _ _
  | cons first skipped =>
    rw [behind, List.map_append, List.map_cons, List.length_cons,
      ← List.length_map bytes]
    exact swapRows_apart _ _ _ _ _

-- The matrices behind a pivot: the scaled row stays, its column is cleared in all other rows.
theorem pivot_eq {p : Nat} {before after : List (Row Gf256)} {found : Row Gf256}
    (coeffs : swapRows m.coeffs m.currentRow p = (before ++ found :: after).map coeffBytes)
    (rhs : swapRows m.rhs m.currentRow p = (before ++ found :: after).map rhsBytes)
    (current : m.currentRow = before.length) (nonzero : found.coeff col ≠ 0)
    {scaled : Row Gf256} (scale : found.scale (found.coeff col)⁻¹ = scaled) :
    m.pivot col p =
      { coeffs := (before.map (fun row => row.clear scaled col) ++ scaled ::
          after.map (fun row => row.clear scaled col)).map coeffBytes
        rhs := (before.map (fun row => row.clear scaled col) ++ scaled ::
          after.map (fun row => row.clear scaled col)).map rhsBytes
        pivotRow := m.pivotRow.set col (some m.currentRow)
        currentRow := m.currentRow + 1 } := by
  have middle (bytes : Row Gf256 → List UInt8) (row : Row Gf256) :
      (before ++ row :: after).map bytes =
        before.map bytes ++ bytes row :: after.map bytes := List.map_append
  have length (bytes : Row Gf256 → List UInt8) : before.length = (before.map bytes).length :=
    (List.length_map bytes).symm
  have lead : gfInv ((((before ++ found :: after).map coeffBytes).getD before.length []).getD col 0)
      = ((found.coeff col)⁻¹).byte := by
    rw [middle, length coeffBytes, getD_middle, coeffBytes_getD, byte_inv _ nonzero]
  have coeffsScaled : ((before ++ found :: after).map coeffBytes).modify before.length
      (fun row => row.map (gfMul · ((found.coeff col)⁻¹).byte)) =
        (before ++ scaled :: after).map coeffBytes := by
    rw [middle, middle, length coeffBytes, modify_middle, ← scale, coeffBytes, coeffBytes,
      ← scaled_bytes]
    rfl
  have rhsScaled : ((before ++ found :: after).map rhsBytes).modify before.length
      (fun row => row.map (gfMul · ((found.coeff col)⁻¹).byte)) =
        (before ++ scaled :: after).map rhsBytes := by
    rw [middle, middle, length rhsBytes, modify_middle, ← scale, rhsBytes, rhsBytes,
      ← scaled_bytes]
    rfl
  have pivotCoeffs : ((before ++ scaled :: after).map coeffBytes).getD before.length [] =
      coeffBytes scaled := by
    rw [middle, length coeffBytes, getD_middle]
  have pivotRhs : ((before ++ scaled :: after).map rhsBytes).getD before.length [] =
      rhsBytes scaled := by
    rw [middle, length rhsBytes, getD_middle]
  unfold Matrices.pivot
  dsimp only
  rw [coeffs, rhs, current, lead, coeffsScaled, rhsScaled, pivotCoeffs, pivotRhs]
  congr 1
  · rw [middle, length coeffBytes, mapIdx_except, List.map_append, List.map_cons, List.map_map,
      List.map_map, List.map_map, List.map_map]
    simp only [Function.comp_def, coeffBytes_getD, clear_coeffBytes]
  · rw [List.zip_map', List.map_append, List.map_cons,
      ← List.length_map fun row => (coeffBytes row, rhsBytes row),
      mapIdx_except, List.map_append, List.map_cons, List.map_map,
      List.map_map, List.map_map, List.map_map]
    simp only [Function.comp_def, coeffBytes_getD, clear_rhsBytes]

theorem Mirrors.pivot (mirrors : Mirrors columns m progress)
    {skipped later : List (Row Gf256)} {found : Row Gf256}
    (rest : progress.rest = skipped ++ found :: later)
    (zeros : ∀ row ∈ skipped, row.coeff col = 0) (nonzero : found.coeff col ≠ 0)
    (inside : col < columns) (fresh : col ∉ progress.pivots.map Prod.fst) :
    Mirrors columns (m.pivot col (progress.pivots.length + skipped.length))
      (progress.column col) := by
  have length : (progress.pivots.map Prod.snd).length = progress.pivots.length := List.length_map _
  have swapped (bytes : Row Gf256 → List UInt8) :
      swapRows ((progress.pivots.map Prod.snd ++ progress.rest).map bytes) m.currentRow
          (progress.pivots.length + skipped.length) =
        (progress.pivots.map Prod.snd ++ found :: behind skipped later).map bytes := by
    rw [mirrors.currentRow, rest, ← length]
    exact swapRows_rows bytes _ skipped later found
  rw [column_split rest zeros nonzero, pivot_eq (mirrors.coeffs ▸ swapped coeffBytes)
    (mirrors.rhs ▸ swapped rhsBytes) (mirrors.currentRow.trans length.symm) nonzero rfl]
  generalize found.scale (found.coeff col)⁻¹ = scaled
  refine ⟨?_, ?_, ?_, ?_, ?_⟩
  · simp only [List.map_append, List.map_map, List.map_cons, List.map_nil, List.append_assoc]
    rfl
  · simp only [List.map_append, List.map_map, List.map_cons, List.map_nil, List.append_assoc]
    rfl
  · rw [List.length_append, List.length_map, mirrors.currentRow]
    rfl
  · rw [List.length_set]
    exact mirrors.length
  · intro other r
    have names : (progress.pivots.map (fun pivot => (pivot.1, pivot.2.clear scaled col)) ++
        [(col, scaled)]).map Prod.fst = progress.pivots.map Prod.fst ++ [col] := by
      rw [List.map_append, List.map_map]
      rfl
    have count : (progress.pivots.map Prod.fst).length = progress.pivots.length := List.length_map _
    rw [names, List.getD_eq_getElem?_getD]
    by_cases same : other = col
    · rw [same, List.getElem?_set_self (mirrors.length.symm ▸ inside), Option.getD_some,
        Option.some.injEq, mirrors.currentRow]
      rcases Nat.lt_trichotomy r progress.pivots.length with earlier | rfl | later
      · rw [List.getElem?_append_left (count.symm ▸ earlier)]
        exact ⟨fun same => absurd same earlier.ne',
          fun found => absurd (List.mem_of_getElem? found) fresh⟩
      · rw [← count, List.getElem?_append_right le_rfl, Nat.sub_self]
        exact ⟨fun _ => rfl, fun _ => rfl⟩
      · rw [List.getElem?_eq_none (by rw [List.length_append, count]; exact later)]
        exact ⟨fun same => absurd same later.ne, fun none => (nomatch none)⟩
    · rw [List.getElem?_set_ne (Ne.symm same), ← List.getD_eq_getElem?_getD, mirrors.pivotRow,
        List.getElem?_append]
      split_ifs with inside
      · rfl
      · rw [List.getElem?_eq_none (Nat.le_of_not_lt inside)]
        refine ⟨fun none => (nomatch none), fun found => ?_⟩
        exact absurd (List.mem_singleton.mp (List.mem_of_getElem? found)) same

theorem column_of_empty (empty : progress.rest = []) (col : Nat) : progress.column col = progress := by
  rw [Progress.column, empty]
  rfl

-- The loop over the remaining columns.
theorem Mirrors.eliminate (mirrors : Mirrors columns m progress)
    (reduced : progress.Reduced columns width col) {left : Nat} (all : col + left = columns) :
    Mirrors columns (m.eliminate (List.range' col left))
      ((List.range' col left).foldl Progress.column progress) := by
  induction left generalizing col m progress with
  | zero => exact mirrors
  | succ left ih =>
    have next := Progress.column_reduced reduced
    rw [List.range'_succ, List.foldl_cons, Matrices.eliminate]
    rcases rest_cases progress.rest col with zeros | ⟨skipped, found, later, rest, zeros, nonzero⟩
    · have same : progress.column col = progress := by
        rw [Progress.column, takePivot_zeros zeros]
      rw [mirrors.findPivot_none zeros]
      rw [same] at next ⊢
      exact ih mirrors next (by omega)
    · have fresh : col ∉ progress.pivots.map Prod.fst := by
        intro member
        obtain ⟨pivot, present, rfl⟩ := List.mem_map.mp member
        exact Nat.lt_irrefl _ (reduced.below pivot present)
      have stepped := mirrors.pivot rest zeros nonzero (by omega) fresh
      rw [mirrors.findPivot_some rest zeros nonzero]
      dsimp only
      split_ifs with last
      · have none : (progress.column col).rest = [] := by
          rw [stepped.coeffs, List.length_map, List.length_append, stepped.currentRow,
            List.length_map] at last
          exact List.length_eq_zero_iff.mp (by omega)
        have still (cols : List Nat) : cols.foldl Progress.column (progress.column col) =
            progress.column col := by
          induction cols with
          | nil => rfl
          | cons head tail ih => rw [List.foldl_cons, column_of_empty none, ih]
        rw [still]
        exact stepped
      · exact ih stepped next (by omega)

theorem Mirrors.pivot_rows (mirrors : Mirrors columns m progress) {r : Nat} {row : Row Gf256}
    (pivot : progress.pivots[r]? = some (col, row)) :
    m.coeffs.getD r [] = coeffBytes row ∧ m.rhs.getD r [] = rhsBytes row := by
  have found : (progress.pivots.map Prod.snd ++ progress.rest)[r]? = some row := by
    have inside : r < (progress.pivots.map Prod.snd).length := by
      rw [List.length_map]
      exact (List.getElem?_eq_some_iff.mp pivot).1
    rw [List.getElem?_append_left inside, List.getElem?_map, pivot]
    rfl
  rw [mirrors.coeffs, mirrors.rhs, List.getD_eq_getElem?_getD, List.getD_eq_getElem?_getD,
    List.getElem?_map, List.getElem?_map, found]
  exact ⟨rfl, rfl⟩

-- Whether a row has no column without a pivot.
theorem Mirrors.determined_iff (mirrors : Mirrors columns m progress) (row : Row Gf256) :
    ((List.range columns).filter (fun c => (m.pivotRow.getD c none).isNone)).all
        (fun c => (coeffBytes row).getD c 0 == 0) = true ↔
      ∀ other < columns, other ∈ progress.pivots.map Prod.fst ∨ row.coeff other = 0 := by
  have pivoted (c : Nat) : (m.pivotRow.getD c none).isNone = true ↔
      c ∉ progress.pivots.map Prod.fst := by
    rw [Option.isNone_iff_eq_none, Option.eq_none_iff_forall_ne_some, List.mem_iff_getElem?,
      not_exists]
    exact forall_congr' fun r => not_congr (mirrors.pivotRow c r)
  simp only [List.all_eq_true, List.mem_filter, List.mem_range, pivoted, coeffBytes_getD,
    beq_iff_eq, byte_eq_zero]
  exact forall_congr' fun other => by
    rw [and_imp]
    exact imp_congr_right fun _ => or_iff_not_imp_left.symm

theorem Mirrors.mem_collect (mirrors : Mirrors columns m progress)
    (reduced : progress.Reduced columns width columns) (col : Nat) (value : List UInt8) :
    (col, value) ∈ m.collect columns ↔
      ∃ solution, (col, solution) ∈ progress.solutions columns ∧
        value = solution.map Gf256.byte := by
  rw [Matrices.collect, List.mem_filterMap]
  constructor
  · rintro ⟨col', inside, found⟩
    obtain ⟨r, position, kept⟩ := Option.bind_eq_some_iff.mp found
    rw [mirrors.pivotRow, List.getElem?_map, Option.map_eq_some_iff] at position
    obtain ⟨⟨_, row⟩, pivot, rfl⟩ := position
    obtain ⟨coeffs, rhs⟩ := mirrors.pivot_rows pivot
    rw [coeffs, rhs] at kept
    split_ifs at kept with determined
    obtain ⟨rfl, rfl⟩ := Prod.mk.inj (Option.some.inj kept)
    exact ⟨row.rhs, (mem_solutions _ _ _ _).mpr ⟨row, List.mem_of_getElem? pivot, rfl,
      (mirrors.determined_iff row).mp determined⟩, rfl⟩
  · rintro ⟨solution, member, rfl⟩
    obtain ⟨row, present, rfl, determined⟩ := (mem_solutions _ _ _ _).mp member
    obtain ⟨r, pivot⟩ := List.mem_iff_getElem?.mp present
    obtain ⟨coeffs, rhs⟩ := mirrors.pivot_rows pivot
    refine ⟨col, List.mem_range.mpr (reduced.below _ present), ?_⟩
    have position : m.pivotRow.getD col none = some r := by
      rw [mirrors.pivotRow, List.getElem?_map, pivot]
      rfl
    rw [position, Option.bind_some, coeffs, rhs, if_pos ((mirrors.determined_iff row).mpr determined)]
    rfl

theorem collect_increasing (m : Matrices) (nUnknowns : Nat) :
    ((m.collect nUnknowns).map Prod.fst).Pairwise (· < ·) := by
  have kept (col named : Nat) (found : ((m.pivotRow.getD col none).bind (fun pr =>
      if ((List.range nUnknowns).filter (fun c => (m.pivotRow.getD c none).isNone)).all
          (fun c => (m.coeffs.getD pr []).getD c 0 == 0) then
        some (col, m.rhs.getD pr [])
      else none)).map Prod.fst = some named) : named = col := by
    obtain ⟨pair, bound, rfl⟩ := Option.map_eq_some_iff.mp found
    obtain ⟨r, -, chosen⟩ := Option.bind_eq_some_iff.mp bound
    split_ifs at chosen
    exact congrArg Prod.fst (Option.some.inj chosen).symm
  rw [Matrices.collect, List.map_filterMap]
  refine List.pairwise_filterMap.mpr (List.pairwise_lt_range.imp ?_)
  intro first second less left leftFound right rightFound
  rw [kept first left leftFound, kept second right rightFound]
  exact less

end Steps

section Systems

variable {coeffs rhs : List (List UInt8)} {nUnknowns payloadLen : Nat}

-- Both matrices have as many rows, of the widths that the function is told.
structure WellShaped (coeffs rhs : List (List UInt8)) (nUnknowns payloadLen : Nat) : Prop where
  rows : rhs.length = coeffs.length
  coeffs : ∀ row ∈ coeffs, row.length = nUnknowns
  rhs : ∀ values ∈ rhs, values.length = payloadLen

-- A vector for every unknown, with which every row holds byte by byte.
structure Solution (coeffs rhs : List (List UInt8)) (nUnknowns payloadLen : Nat)
    (x : Nat → List UInt8) : Prop where
  width : ∀ col < nUnknowns, (x col).length = payloadLen
  equations : ∀ r < coeffs.length, ∀ index < payloadLen,
    ∑ col ∈ Finset.range nUnknowns,
        (⟨(coeffs.getD r []).getD col 0⟩ : Gf256) * ⟨(x col).getD index 0⟩ =
      ⟨(rhs.getD r []).getD index 0⟩

def rowsOf (coeffs rhs : List (List UInt8)) : List (Row Gf256) :=
  List.zipWith (fun row values => ⟨row.map Gf256.mk, values.map Gf256.mk⟩) coeffs rhs

theorem map_mk_byte (values : List UInt8) : (values.map Gf256.mk).map Gf256.byte = values := by
  rw [List.map_map]
  exact List.map_id values

theorem rowsOf_bytes (same : rhs.length = coeffs.length) :
    (rowsOf coeffs rhs).map coeffBytes = coeffs ∧ (rowsOf coeffs rhs).map rhsBytes = rhs := by
  induction coeffs generalizing rhs with
  | nil =>
    obtain rfl := List.length_eq_zero_iff.mp same
    exact ⟨rfl, rfl⟩
  | cons row coeffs ih =>
    cases rhs with
    | nil => cases same
    | cons values rhs =>
      obtain ⟨left, right⟩ := ih (Nat.succ.inj same)
      rw [rowsOf] at left right
      rw [rowsOf, List.zipWith_cons_cons, List.map_cons, List.map_cons, left, right]
      exact ⟨congrArg (· :: coeffs) (map_mk_byte row), congrArg (· :: rhs) (map_mk_byte values)⟩

theorem rowsOf_shaped (shaped : WellShaped coeffs rhs nUnknowns payloadLen) :
    ∀ row ∈ rowsOf coeffs rhs, row.Shaped nUnknowns payloadLen := by
  obtain ⟨left, right⟩ := rowsOf_bytes shaped.rows
  intro row member
  have coeffsLength := shaped.coeffs (coeffBytes row) (left ▸ List.mem_map_of_mem member)
  have rhsLength := shaped.rhs (rhsBytes row) (right ▸ List.mem_map_of_mem member)
  rw [coeffBytes, List.length_map] at coeffsLength
  rw [rhsBytes, List.length_map] at rhsLength
  exact ⟨coeffsLength, rhsLength⟩

theorem start_mirrors (shaped : WellShaped coeffs rhs nUnknowns payloadLen) :
    Mirrors nUnknowns ⟨coeffs, rhs, List.replicate nUnknowns none, 0⟩
      ⟨[], rowsOf coeffs rhs⟩ := by
  obtain ⟨left, right⟩ := rowsOf_bytes shaped.rows
  refine ⟨left.symm, right.symm, rfl, List.length_replicate, fun col r => ?_⟩
  have none : (List.replicate nUnknowns (none : Option Nat)).getD col none = none := by
    rw [List.getD_eq_getElem?_getD, List.getElem?_replicate]
    split_ifs <;> rfl
  rw [none]
  exact ⟨fun found => (nomatch found), fun found => (nomatch found)⟩

theorem mem_gaussianElimLoop (shaped : WellShaped coeffs rhs nUnknowns payloadLen)
    (positive : 0 < payloadLen) (col : Nat) (value : List UInt8) :
    (col, value) ∈ gaussianElimLoop coeffs rhs nUnknowns payloadLen ↔
      ∃ solution, (col, solution) ∈ solve (rowsOf coeffs rhs) nUnknowns ∧
        value = solution.map Gf256.byte := by
  have rows := rowsOf_shaped shaped
  unfold gaussianElimLoop
  by_cases trivial : coeffs.length = 0 ∨ nUnknowns = 0 ∨ payloadLen = 0
  · rw [if_pos trivial]
    refine ⟨fun member => (nomatch member), fun ⟨solution, member, _⟩ => ?_⟩
    -- Without an equation no unknown is determined.
    obtain ⟨inside, vanish⟩ := (mem_solve_iff rows col).mp (List.mem_map_of_mem member)
    have none : coeffs = [] := by
      rcases trivial with none | none | none
      · exact List.length_eq_zero_iff.mp none
      · omega
      · omega
    refine absurd (vanish (fun _ => 1) fun row member => ?_) one_ne_zero
    rw [none] at member
    cases member
  · rw [if_neg trivial]
    have reduced : (⟨[], rowsOf coeffs rhs⟩ : Progress Gf256).Reduced nUnknowns payloadLen 0 :=
      eliminate_reduced rows 0
    have mirrors := (start_mirrors shaped).eliminate reduced (Nat.zero_add nUnknowns)
    rw [← List.range_eq_range'] at mirrors
    exact mirrors.mem_collect (eliminate_reduced rows nUnknowns) col value

-- A solution as an assignment that all rows hold for.
theorem Solution.holds (shaped : WellShaped coeffs rhs nUnknowns payloadLen)
    {x : Nat → List UInt8} :
    Solution coeffs rhs nUnknowns payloadLen x ↔
      (∀ col < nUnknowns, (x col).length = payloadLen) ∧
        ∀ row ∈ rowsOf coeffs rhs,
          row.Holds nUnknowns payloadLen (fun col index => ⟨(x col).getD index 0⟩) := by
  obtain ⟨left, right⟩ := rowsOf_bytes shaped.rows
  have at_row {r : Nat} {row : Row Gf256} (found : (rowsOf coeffs rhs)[r]? = some row) :
      coeffs.getD r [] = coeffBytes row ∧ rhs.getD r [] = rhsBytes row := by
    rw [List.getD_eq_getElem?_getD, List.getD_eq_getElem?_getD]
    nth_rewrite 1 [← left]
    nth_rewrite 2 [← right]
    rw [List.getElem?_map, List.getElem?_map, found]
    exact ⟨rfl, rfl⟩
  have length : (rowsOf coeffs rhs).length = coeffs.length := by
    rw [← List.length_map (f := coeffBytes), left]
  have entry (row : Row Gf256) (index : Nat) :
      (⟨(rhsBytes row).getD index 0⟩ : Gf256) = row.entry index := by
    rw [rhsBytes, Row.entry, List.getD_eq_getElem?_getD, List.getD_eq_getElem?_getD,
      List.getElem?_map]
    cases row.rhs[index]? <;> rfl
  constructor
  · rintro ⟨width, equations⟩
    refine ⟨width, fun row member index within => ?_⟩
    obtain ⟨r, found⟩ := List.mem_iff_getElem?.mp member
    obtain ⟨coeffsRow, rhsRow⟩ := at_row found
    have holds := equations r (length ▸ (List.getElem?_eq_some_iff.mp found).1) index within
    rw [coeffsRow, rhsRow, entry] at holds
    simp only [coeffBytes_getD] at holds
    exact holds
  · rintro ⟨width, holds⟩
    refine ⟨width, fun r inside index within => ?_⟩
    have found : (rowsOf coeffs rhs)[r]? = some _ := List.getElem?_eq_getElem (length ▸ inside)
    obtain ⟨coeffsRow, rhsRow⟩ := at_row found
    have equation := holds _ (List.mem_of_getElem? found) index within
    rw [coeffsRow, rhsRow, entry]
    simp only [coeffBytes_getD]
    exact equation

theorem Solution.value {x : Nat → List UInt8}
    (shaped : WellShaped coeffs rhs nUnknowns payloadLen)
    (solution : Solution coeffs rhs nUnknowns payloadLen x) {col : Nat} {value : List Gf256}
    (solved : (col, value) ∈ solve (rowsOf coeffs rhs) nUnknowns) :
    x col = value.map Gf256.byte := by
  obtain ⟨width, holds⟩ := (Solution.holds shaped).mp solution
  obtain ⟨inside, length, values⟩ := solve_sound (rowsOf_shaped shaped)
    (fun row member => .inl (holds row member)) solved
  refine List.ext_getElem ?_ fun index left right => ?_
  · rw [width col inside, List.length_map, length]
  · have byte := values index (width col inside ▸ left)
    rw [List.getD_eq_getElem _ _ (by simpa using right), List.getD_eq_getElem _ _ left] at byte
    rw [List.getElem_map, byte]

-- A solution moved along a homogeneous one.
theorem Solution.moved {x : Nat → List UInt8}
    (shaped : WellShaped coeffs rhs nUnknowns payloadLen)
    (solution : Solution coeffs rhs nUnknowns payloadLen x) {k : Nat → Gf256}
    (kernel : ∀ row ∈ rowsOf coeffs rhs, row.dot nUnknowns k = 0) :
    Solution coeffs rhs nUnknowns payloadLen (fun col => (List.range payloadLen).map
      (fun index => ((⟨(x col).getD index 0⟩ : Gf256) + k col).byte)) := by
  obtain ⟨width, holds⟩ := (Solution.holds shaped).mp solution
  refine (Solution.holds shaped).mpr ⟨fun col _ => ?_, fun row member index within => ?_⟩
  · rw [List.length_map, List.length_range]
  · have byte (col : Nat) : ((List.range payloadLen).map
        (fun index => ((⟨(x col).getD index 0⟩ : Gf256) + k col).byte)).getD index 0 =
          ((⟨(x col).getD index 0⟩ : Gf256) + k col).byte := by
      rw [List.getD_eq_getElem _ _ (by simpa using within), List.getElem_map, List.getElem_range]
    have sum : row.dot nUnknowns (fun col => (⟨(x col).getD index 0⟩ : Gf256) + k col) =
        row.dot nUnknowns (fun col => ⟨(x col).getD index 0⟩) + row.dot nUnknowns k := by
      simp only [Row.dot, mul_add, Finset.sum_add_distrib]
    simp only [byte]
    exact sum.trans (by rw [kernel row member, add_zero]; exact holds row member index within)

/-- For a consistent system, a column is returned exactly if its unknown has one value in all
solutions, no column is returned twice, and what is returned is that value. -/
theorem gaussianElimLoop_exact (shaped : WellShaped coeffs rhs nUnknowns payloadLen)
    (positive : 0 < payloadLen)
    (consistent : ∃ x, Solution coeffs rhs nUnknowns payloadLen x) :
    (∀ col, col ∈ (gaussianElimLoop coeffs rhs nUnknowns payloadLen).map Prod.fst ↔
      col < nUnknowns ∧ ∀ x y, Solution coeffs rhs nUnknowns payloadLen x →
        Solution coeffs rhs nUnknowns payloadLen y → x col = y col) ∧
    ((gaussianElimLoop coeffs rhs nUnknowns payloadLen).map Prod.fst).Nodup ∧
    ∀ col value, (col, value) ∈ gaussianElimLoop coeffs rhs nUnknowns payloadLen →
      ∀ x, Solution coeffs rhs nUnknowns payloadLen x → x col = value := by
  refine ⟨fun col => ⟨fun member => ?_, fun ⟨inside, unique⟩ => ?_⟩, ?_, ?_⟩
  · obtain ⟨⟨_, value⟩, returned, rfl⟩ := List.mem_map.mp member
    obtain ⟨solution, solved, -⟩ := (mem_gaussianElimLoop shaped positive _ _).mp returned
    refine ⟨((mem_solve_iff (rowsOf_shaped shaped) _).mp (List.mem_map_of_mem solved)).1,
      fun x y left right => ?_⟩
    exact (left.value shaped solved).trans (right.value shaped solved).symm
  · obtain ⟨x, solution⟩ := consistent
    have vanish (k : Nat → Gf256) (kernel : ∀ row ∈ rowsOf coeffs rhs, row.dot nUnknowns k = 0) :
        k col = 0 := by
      have same := unique _ _ solution (solution.moved shaped kernel)
      have byte := congrArg (fun values : List UInt8 => values.getD 0 0) same
      rw [List.getD_eq_getElem (List.map _ _) _ (by simpa using positive), List.getElem_map,
        List.getElem_range] at byte
      exact left_eq_add.mp (Gf256.ext (a := ⟨(x col).getD 0 0⟩) byte)
    obtain ⟨⟨_, value⟩, solved, rfl⟩ := List.mem_map.mp
      ((mem_solve_iff (rowsOf_shaped shaped) col).mpr ⟨inside, vanish⟩)
    exact List.mem_map.mpr ⟨_, (mem_gaussianElimLoop shaped positive _ _).mpr ⟨value, solved, rfl⟩,
      rfl⟩
  · unfold gaussianElimLoop
    split_ifs
    · exact List.nodup_nil
    · exact (collect_increasing _ _).imp Nat.ne_of_lt
  · intro col value returned x solution
    obtain ⟨values, solved, rfl⟩ := (mem_gaussianElimLoop shaped positive _ _).mp returned
    exact solution.value shaped solved

theorem gaussianElimLoop_exact_single :
    (∀ col, col ∈ (gaussianElimLoop [[1]] [[5]] 1 1).map Prod.fst ↔
      col < 1 ∧ ∀ x y, Solution [[1]] [[5]] 1 1 x → Solution [[1]] [[5]] 1 1 y → x col = y col) ∧
    ((gaussianElimLoop [[1]] [[5]] 1 1).map Prod.fst).Nodup ∧
    ∀ col value, (col, value) ∈ gaussianElimLoop [[1]] [[5]] 1 1 →
      ∀ x, Solution [[1]] [[5]] 1 1 x → x col = value := by
  refine gaussianElimLoop_exact ⟨rfl, by simp, by simp⟩ (by decide) ⟨fun _ => [5], fun _ _ => rfl, ?_⟩
  intro r inside index within
  obtain rfl : r = 0 := by simpa using inside
  obtain rfl : index = 0 := by simpa using within
  rw [Finset.sum_range_one]
  exact one_mul (⟨5⟩ : Gf256)

/-- The decoder's elimination is this loop. -/
theorem gaussianElim_eq_loop (shaped : WellShaped coeffs rhs nUnknowns payloadLen)
    (positive : 0 < payloadLen) :
    gaussianElim coeffs rhs nUnknowns payloadLen =
      gaussianElimLoop coeffs rhs nUnknowns payloadLen := by
  have member (pair : Nat × List UInt8) :
      pair ∈ gaussianElimLoop coeffs rhs nUnknowns payloadLen ↔
        pair ∈ (solve (rowsOf coeffs rhs) nUnknowns).map
          (fun solution => (solution.1, solution.2.map Gf256.byte)) := by
    rw [mem_gaussianElimLoop shaped positive, List.mem_map]
    constructor
    · rintro ⟨solution, solved, same⟩
      exact ⟨_, solved, Prod.ext rfl same.symm⟩
    · rintro ⟨solution, solved, rfl⟩
      exact ⟨_, solved, rfl⟩
  unfold gaussianElim gaussianElimLoop at *
  by_cases trivial : coeffs.length = 0 ∨ nUnknowns = 0 ∨ payloadLen = 0
  · rw [if_pos trivial, if_pos trivial]
  rw [if_neg trivial] at member ⊢
  rw [if_neg trivial]
  have left : ((solve (rowsOf coeffs rhs) nUnknowns).map Prod.fst).Pairwise (· < ·) :=
    solve_increasing (rowsOf_shaped shaped)
  have right := collect_increasing
    (Matrices.eliminate ⟨coeffs, rhs, List.replicate nUnknowns none, 0⟩ (List.range nUnknowns))
    nUnknowns
  rw [List.pairwise_map] at left right
  have leftMapped : ((solve (rowsOf coeffs rhs) nUnknowns).map
      (fun solution => (solution.1, solution.2.map Gf256.byte))).Pairwise
        (fun first second => first.1 < second.1) := List.pairwise_map.mpr left
  have distinct {pairs : List (Nat × List UInt8)}
      (increasing : pairs.Pairwise (fun first second => first.1 < second.1)) : pairs.Nodup :=
    increasing.imp fun less => ne_of_apply_ne Prod.fst (Nat.ne_of_lt less)
  refine List.Perm.eq_of_pairwise (fun first second _ _ less more => ?_) leftMapped right
    ((List.perm_ext_iff_of_nodup (distinct leftMapped) (distinct right)).mpr
      fun pair => (member pair).symm)
  exact absurd more (Nat.lt_asymm less)

end Systems

end GaussianElim

end BetterParsec
