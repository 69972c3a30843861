import BetterParsec.Fec.Decoder

set_option autoImplicit false
set_option linter.all false

/-!
# Repair equations

A repair payload is, byte by byte, a linear combination of the length-prefixed
payloads in its window. Subtracting the known sources leaves an equation in the
unknown ones, provided every seq of the window is still tracked.
-/

namespace BetterParsec

theorem getD_of_le (bytes : List UInt8) (index : Nat) (beyond : bytes.length ≤ index) :
    bytes.getD index 0 = 0 := by
  simp [List.getD_eq_getElem?_getD, beyond]

@[simp] theorem xorScaled_length (payload bytes : List UInt8) (coeff : UInt8) :
    (FecEncoder.xorScaled payload coeff bytes).length = payload.length := by
  simp [FecEncoder.xorScaled]

theorem xorScaled_getD (payload bytes : List UInt8) (coeff : UInt8) (index : Nat)
    (fits : bytes.length ≤ payload.length) :
    (FecEncoder.xorScaled payload coeff bytes).getD index 0 =
      payload.getD index 0 ^^^ gfMul coeff (bytes.getD index 0) := by
  by_cases within : index < payload.length
  · simp [FecEncoder.xorScaled, List.getD_eq_getElem?_getD, within]
  · have beyond := getD_of_le payload index (by omega)
    have short := getD_of_le bytes index (by omega)
    rw [beyond, short, getD_of_le _ _ (by rw [xorScaled_length]; omega)]
    simp

theorem maxEffLen_le (window : List WindowEntry) (entry : WindowEntry) (member : entry ∈ window) :
    entry.prefixedPayload.length ≤ FecEncoder.maxEffLen window := by
  induction window with
  | nil => simp at member
  | cons head rest ih =>
    simp only [FecEncoder.maxEffLen, List.map_cons, List.foldr_cons] at ih ⊢
    rcases List.mem_cons.mp member with rfl | later
    · exact le_max_left _ _
    · exact (ih later).trans (le_max_right _ _)

theorem foldl_xorScaled_getD (repairSeq : UInt16) (window : List WindowEntry) (payload : List UInt8)
    (fits : ∀ entry ∈ window, entry.prefixedPayload.length ≤ payload.length) (index : Nat) :
    (⟨(window.foldl (fun payload entry => FecEncoder.xorScaled payload
        (gfCoeff repairSeq entry.seq) entry.prefixedPayload) payload).getD index 0⟩ : Gf256) =
      ⟨payload.getD index 0⟩ + (window.map (fun entry =>
        (⟨gfCoeff repairSeq entry.seq⟩ : Gf256) * ⟨entry.prefixedPayload.getD index 0⟩)).sum := by
  induction window generalizing payload with
  | nil => simp
  | cons head rest ih =>
    rw [List.foldl_cons, ih _ (fun entry member => by
      rw [xorScaled_length]
      exact fits entry (List.mem_cons_of_mem _ member)),
      xorScaled_getD _ _ _ _ (fits head (by simp)), List.map_cons, List.sum_cons, ← add_assoc]
    rfl

theorem combine_getD (repairSeq : UInt16) (window : List WindowEntry) (index : Nat) :
    (⟨(FecEncoder.combine repairSeq window).getD index 0⟩ : Gf256) =
      (window.map (fun entry =>
        (⟨gfCoeff repairSeq entry.seq⟩ : Gf256) * ⟨entry.prefixedPayload.getD index 0⟩)).sum := by
  have zero : (List.replicate (FecEncoder.maxEffLen window) (0 : UInt8)).getD index 0 = 0 := by
    rw [List.getD_eq_getElem?_getD, List.getElem?_replicate]
    split_ifs <;> rfl
  rw [FecEncoder.combine, foldl_xorScaled_getD _ _ _ (fun entry member => by
    simpa using maxEffLen_le window entry member), zero]
  exact zero_add _

theorem combine_length (repairSeq : UInt16) (window : List WindowEntry) :
    (FecEncoder.combine repairSeq window).length = FecEncoder.maxEffLen window := by
  have kept (window : List WindowEntry) (payload : List UInt8) :
      (window.foldl (fun payload entry => FecEncoder.xorScaled payload
        (gfCoeff repairSeq entry.seq) entry.prefixedPayload) payload).length = payload.length := by
    induction window generalizing payload with
    | nil => rfl
    | cons head rest ih => rw [List.foldl_cons, ih, xorScaled_length]
  rw [FecEncoder.combine, kept, List.length_replicate]

-- Byte `index` of the length-prefixed payload of `seq`, zero beyond its end.
def effByte (truth : UInt32 → Payload) (seq : UInt32) (index : Nat) : Gf256 :=
  ⟨(prefixed (truth seq)).getD index 0⟩

-- The repair payload is the combination of its window's true payloads.
def ReceivedRepair.Genuine (truth : UInt32 → Payload) (repair : ReceivedRepair) : Prop :=
  repair.payload = FecEncoder.combine repair.repairSeq
    (repair.seqs.map (fun seq => ⟨seq, prefixed (truth seq)⟩))

theorem ReceivedRepair.Genuine.getD {truth : UInt32 → Payload} {repair : ReceivedRepair}
    (genuine : repair.Genuine truth) (index : Nat) :
    (⟨repair.payload.getD index 0⟩ : Gf256) = (repair.seqs.map (fun seq =>
      (⟨gfCoeff repair.repairSeq seq⟩ : Gf256) * effByte truth seq index)).sum := by
  rw [genuine, combine_getD, List.map_map]
  rfl

theorem ReceivedRepair.Genuine.length {truth : UInt32 → Payload} {repair : ReceivedRepair}
    (genuine : repair.Genuine truth) {seq : UInt32} (member : seq ∈ repair.seqs) :
    (truth seq).length + 2 ≤ repair.payload.length := by
  rw [genuine, combine_length]
  exact maxEffLen_le _ ⟨seq, prefixed (truth seq)⟩ (List.mem_map.mpr ⟨seq, member, rfl⟩)

theorem ReceivedRepair.seqs_nodup (repair : ReceivedRepair) : repair.seqs.Nodup := by
  refine List.Nodup.map_on ?_ List.nodup_range
  intro left leftMember right rightMember same
  have bound := (repair.windowEnd - repair.windowBase).toNat_lt
  simp only [List.mem_range] at leftMember rightMember
  have offsets : UInt32.ofNat left = UInt32.ofNat right := by simpa using same
  have values := congrArg UInt32.toNat offsets
  simp only [UInt32.toNat_ofNat'] at values
  omega

-- The bytes of an equation as a row over the field.
def FecDecoder.EquationRow.toRow (row : FecDecoder.EquationRow) : Elimination.Row Gf256 :=
  { coeffs := row.coeffs.map Gf256.mk, rhs := row.rhs.map Gf256.mk }

namespace FecDecoder

theorem EquationRow.coeff_toRow (row : EquationRow) (col : Nat) :
    row.toRow.coeff col = ⟨row.coeffs.getD col 0⟩ := by
  simp only [toRow, Elimination.Row.coeff, List.getD_eq_getElem?_getD, List.getElem?_map]
  cases row.coeffs[col]? <;> rfl

theorem EquationRow.entry_toRow (row : EquationRow) (index : Nat) :
    row.toRow.entry index = ⟨row.rhs.getD index 0⟩ := by
  simp only [toRow, Elimination.Row.entry, List.getD_eq_getElem?_getD, List.getElem?_map]
  cases row.rhs[index]? <;> rfl

@[simp] theorem mem_missingSeqs (decoder : FecDecoder) (seq : UInt32) :
    seq ∈ decoder.missingSeqs ↔ decoder.sources.get? seq = some .missing := by
  rw [missingSeqs, OrdMap.mem_keys]
  constructor
  · rintro ⟨state, found⟩
    rw [OrdMap.get?_filter, Option.filter_eq_some_iff] at found
    cases state <;> simp_all [SourceState.isKnown, SourceState.payload]
  · intro found
    exact ⟨.missing, by simp [OrdMap.get?_filter, found, SourceState.isKnown, SourceState.payload]⟩

/-- What a visit can do to a row: nothing, subtract a known source, or set one coefficient. -/
theorem visit_cases (sources : OrdMap UInt32 SourceState) (missing : List UInt32)
    (repair : ReceivedRepair) (row : EquationRow) (seq : UInt32) :
    (sources.get? seq = none ∧ EquationRow.visit sources missing repair row seq = row) ∨
    (∃ state payload, sources.get? seq = some state ∧ state.payload = some payload ∧
      EquationRow.visit sources missing repair row seq =
        { row with rhs := row.rhs.mapIdx (fun index b =>
            b ^^^ gfMul (gfCoeff repair.repairSeq seq) (subtrahend repair payload index)) }) ∨
    (sources.get? seq = some .missing ∧ ∃ position, missing.idxOf? seq = some position ∧
      EquationRow.visit sources missing repair row seq =
        { row with coeffs := row.coeffs.set position (gfCoeff repair.repairSeq seq) }) ∨
    (sources.get? seq = some .missing ∧ seq ∉ missing ∧
      EquationRow.visit sources missing repair row seq = row) := by
  unfold EquationRow.visit
  cases found : sources.get? seq with
  | none => simp
  | some state =>
    cases state with
    | received payload => simp [SourceState.payload]
    | recovered payload => simp [SourceState.payload]
    | missing =>
      cases position : missing.idxOf? seq with
      | none => simp_all [SourceState.payload]
      | some index => simp [SourceState.payload]

theorem visit_shaped {sources : OrdMap UInt32 SourceState} {missing : List UInt32}
    {repair : ReceivedRepair} {row : EquationRow} {columns width : Nat}
    (shaped : row.toRow.Shaped columns width) (seq : UInt32) :
    (EquationRow.visit sources missing repair row seq).toRow.Shaped columns width := by
  obtain ⟨-, result⟩ | ⟨_, _, -, -, result⟩ | ⟨-, _, -, result⟩ | ⟨-, -, result⟩ :=
    visit_cases sources missing repair row seq <;>
  · rw [result]
    simpa [Elimination.Row.Shaped, EquationRow.toRow] using shaped

/-- A visit only touches the column of the seq it visits. -/
theorem visit_coeff {sources : OrdMap UInt32 SourceState} {missing : List UInt32}
    {repair : ReceivedRepair} {row : EquationRow} {seq : UInt32} {col : Nat}
    (other : missing[col]? ≠ some seq) :
    (EquationRow.visit sources missing repair row seq).toRow.coeff col = row.toRow.coeff col := by
  obtain ⟨-, result⟩ | ⟨_, _, -, -, result⟩ | ⟨-, position, found, result⟩ | ⟨-, -, result⟩ :=
    visit_cases sources missing repair row seq
  · rw [result]
  · rw [result]
    rfl
  · obtain ⟨bound, same, -⟩ := List.idxOf?_eq_some_iff.mp found
    have distinct : position ≠ col := by
      rintro rfl
      exact other (by rw [List.getElem?_eq_getElem bound, same])
    simp [result, EquationRow.coeff_toRow, List.getD_eq_getElem?_getD, distinct]
  · rw [result]

theorem subtrahend_eq (repair : ReceivedRepair) (payload : Payload) (index : Nat)
    (long : 2 ≤ repair.payload.length) :
    subtrahend repair payload index = (prefixed payload).getD index 0 := by
  have nonempty : repair.payload ≠ [] := by
    rintro empty
    simp [empty] at long
  match index with
  | 0 => simp [subtrahend, prefixed, nonempty]
  | 1 => simp [subtrahend, prefixed, long]
  | rest + 2 => simp [subtrahend, prefixed]

theorem dot_set (row : EquationRow) (position : Nat) (coeff : UInt8) (x : Nat → Gf256)
    (bound : position < row.coeffs.length) (zero : row.toRow.coeff position = 0) :
    (EquationRow.toRow { row with coeffs := row.coeffs.set position coeff }).dot
        row.coeffs.length x =
      row.toRow.dot row.coeffs.length x + ⟨coeff⟩ * x position := by
  have entries (col : Nat) :
      (EquationRow.toRow { row with coeffs := row.coeffs.set position coeff }).coeff col =
        row.toRow.coeff col + if col = position then (⟨coeff⟩ : Gf256) else 0 := by
    by_cases same : col = position
    · subst same
      rw [if_pos rfl, zero, zero_add, EquationRow.coeff_toRow]
      simp [List.getD_eq_getElem?_getD, bound]
    · simp [EquationRow.coeff_toRow, List.getD_eq_getElem?_getD, same, Ne.symm same]
  simp only [Elimination.Row.dot, entries, add_mul, Finset.sum_add_distrib, ite_mul, zero_mul,
    Finset.sum_ite_eq', Finset.mem_range, bound, if_true]

section Residual

variable (truth : UInt32 → Payload) (decoder : FecDecoder)

-- Every payload held for a seq is the true one.
def Known : Prop :=
  ∀ seq state payload, decoder.sources.get? seq = some state → state.payload = some payload →
    payload = truth seq

-- An equation that still has an unknown speaks only about seqs that are tracked.
def Coupled (repair : ReceivedRepair) : Prop :=
  (∃ seq ∈ repair.seqs, decoder.sources.get? seq = some .missing) →
    ∀ seq ∈ repair.seqs, decoder.sources.get? seq ≠ none

-- The true values of the unknowns at one byte position.
def unknowns (index col : Nat) : Gf256 := effByte truth (decoder.missingSeqs.getD col 0) index

-- Zero exactly when the row's equation holds at byte `index`.
def residual (row : EquationRow) (index : Nat) : Gf256 :=
  row.toRow.dot decoder.missingSeqs.length (unknowns truth decoder index) + row.toRow.entry index

variable {truth decoder}

/-- Visiting a tracked seq adds its term to the residual, on either side of the equation. -/
theorem visit_residual {repair : ReceivedRepair} {row : EquationRow} {width index : Nat}
    {seq : UInt32}
    (known : decoder.Known truth)
    (long : 2 ≤ repair.payload.length)
    (shaped : row.toRow.Shaped decoder.missingSeqs.length width) (within : index < width)
    (tracked : decoder.sources.get? seq ≠ none)
    (fresh : ∀ position, decoder.missingSeqs.idxOf? seq = some position →
      row.toRow.coeff position = 0) :
    residual truth decoder (EquationRow.visit decoder.sources decoder.missingSeqs repair row seq)
        index =
      residual truth decoder row index +
        ⟨gfCoeff repair.repairSeq seq⟩ * effByte truth seq index := by
  have columns : row.coeffs.length = decoder.missingSeqs.length := by
    simpa [EquationRow.toRow] using shaped.1
  have length : row.rhs.length = width := by simpa [EquationRow.toRow] using shaped.2
  obtain ⟨absent, -⟩ | ⟨state, payload, found, held, result⟩ | ⟨-, position, found, result⟩ |
      ⟨found, absent, -⟩ := visit_cases decoder.sources decoder.missingSeqs repair row seq
  · exact absurd absent tracked
  · -- A known source: the right-hand side moves.
    have entry : (EquationRow.visit decoder.sources decoder.missingSeqs repair row seq).toRow.entry
        index = row.toRow.entry index +
          ⟨gfCoeff repair.repairSeq seq⟩ * effByte truth seq index := by
      rw [result, EquationRow.entry_toRow, EquationRow.entry_toRow, effByte,
        ← known seq state payload found held, ← subtrahend_eq repair payload index long]
      simp only [List.getD_eq_getElem?_getD, List.getElem?_mapIdx,
        List.getElem?_eq_getElem (length ▸ within), Option.map_some, Option.getD_some]
      rfl
    have dot : (EquationRow.visit decoder.sources decoder.missingSeqs repair row seq).toRow.dot
        decoder.missingSeqs.length = row.toRow.dot decoder.missingSeqs.length := by
      rw [result]
      rfl
    rw [residual, residual, entry, dot, add_assoc]
  · -- An unknown: its column gets the coefficient.
    obtain ⟨bound, same, -⟩ := List.idxOf?_eq_some_iff.mp found
    have value : unknowns truth decoder index position = effByte truth seq index := by
      rw [unknowns, List.getD_eq_getElem?_getD, List.getElem?_eq_getElem bound, same]
      rfl
    have dot := dot_set row position (gfCoeff repair.repairSeq seq)
      (unknowns truth decoder index) (by omega) (fresh position found)
    rw [columns, value] at dot
    rw [residual, residual, result, dot]
    simp only [EquationRow.entry_toRow]
    ring
  · exact absurd ((mem_missingSeqs decoder seq).mpr found) absent

theorem foldl_visit_shaped {repair : ReceivedRepair} {row : EquationRow} {width : Nat}
    (shaped : row.toRow.Shaped decoder.missingSeqs.length width) (seqs : List UInt32) :
    (seqs.foldl (EquationRow.visit decoder.sources decoder.missingSeqs repair)
      row).toRow.Shaped decoder.missingSeqs.length width := by
  induction seqs generalizing row with
  | nil => exact shaped
  | cons seq rest ih => exact ih (visit_shaped shaped seq)

theorem foldl_visit_coeff {repair : ReceivedRepair} {row : EquationRow} {col : Nat}
    (seqs : List UInt32) (outside : ∀ seq ∈ seqs, decoder.missingSeqs[col]? ≠ some seq) :
    (seqs.foldl (EquationRow.visit decoder.sources decoder.missingSeqs repair)
      row).toRow.coeff col = row.toRow.coeff col := by
  induction seqs generalizing row with
  | nil => rfl
  | cons seq rest ih =>
    rw [List.foldl_cons, ih (fun other member => outside other (by simp [member])),
      visit_coeff (outside seq (by simp))]

theorem foldl_visit_residual {repair : ReceivedRepair} {row : EquationRow} {width index : Nat}
    {seqs : List UInt32}
    (known : decoder.Known truth)
    (long : 2 ≤ repair.payload.length)
    (shaped : row.toRow.Shaped decoder.missingSeqs.length width) (within : index < width)
    (distinct : seqs.Nodup) (tracked : ∀ seq ∈ seqs, decoder.sources.get? seq ≠ none)
    (fresh : ∀ seq ∈ seqs, ∀ position, decoder.missingSeqs.idxOf? seq = some position →
      row.toRow.coeff position = 0) :
    residual truth decoder
        (seqs.foldl (EquationRow.visit decoder.sources decoder.missingSeqs repair) row) index =
      residual truth decoder row index + (seqs.map (fun seq =>
        (⟨gfCoeff repair.repairSeq seq⟩ : Gf256) * effByte truth seq index)).sum := by
  induction seqs generalizing row with
  | nil => simp
  | cons seq rest ih =>
    rw [List.nodup_cons] at distinct
    have kept (other : UInt32) (member : other ∈ rest) (position : Nat)
        (found : decoder.missingSeqs.idxOf? other = some position) :
        (EquationRow.visit decoder.sources decoder.missingSeqs repair row seq).toRow.coeff
          position = 0 := by
      obtain ⟨bound, same, -⟩ := List.idxOf?_eq_some_iff.mp found
      rw [visit_coeff, fresh other (by simp [member]) position found]
      rw [List.getElem?_eq_getElem bound, same]
      rintro equal
      exact distinct.1 (Option.some.inj equal ▸ member)
    rw [List.foldl_cons, ih (visit_shaped shaped seq) distinct.2
      (fun other member => tracked other (by simp [member])) kept,
      visit_residual known long shaped within (tracked seq (by simp)) (fresh seq (by simp)),
      List.map_cons, List.sum_cons, add_assoc]

omit truth decoder in
theorem start_coeff (columns width col : Nat) (repair : ReceivedRepair) :
    (EquationRow.start columns width repair).toRow.coeff col = 0 := by
  rw [EquationRow.coeff_toRow, EquationRow.start, List.getD_eq_getElem?_getD,
    List.getElem?_replicate]
  split_ifs <;> rfl

theorem start_shaped {columns width : Nat} {repair : ReceivedRepair}
    (fits : repair.payload.length ≤ width) :
    (EquationRow.start columns width repair).toRow.Shaped columns width := by
  simp [Elimination.Row.Shaped, EquationRow.toRow, EquationRow.start, fits]

theorem start_residual (repair : ReceivedRepair) (width index : Nat) :
    residual truth decoder (.start decoder.missingSeqs.length width repair) index =
      ⟨repair.payload.getD index 0⟩ := by
  have entry : (repair.payload ++ List.replicate (width - repair.payload.length) 0).getD index 0 =
      repair.payload.getD index 0 := by
    simp only [List.getD_eq_getElem?_getD, List.getElem?_append, List.getElem?_replicate]
    split_ifs with inside
    · rfl
    · simp [inside]
    · simp [inside]
  simp only [residual, Elimination.Row.dot, start_coeff, zero_mul, Finset.sum_const_zero, zero_add,
    EquationRow.entry_toRow]
  rw [EquationRow.start, entry]

theorem equationRow_shaped (repair : ReceivedRepair) (width : Nat)
    (fits : repair.payload.length ≤ width) :
    (decoder.equationRow decoder.missingSeqs width repair).toRow.Shaped
      decoder.missingSeqs.length width :=
  foldl_visit_shaped (start_shaped fits) _

theorem equationRow_coeff {repair : ReceivedRepair} {width col : Nat}
    (outside : ∀ seq ∈ repair.seqs, decoder.missingSeqs[col]? ≠ some seq) :
    (decoder.equationRow decoder.missingSeqs width repair).toRow.coeff col = 0 := by
  rw [equationRow, foldl_visit_coeff repair.seqs outside, start_coeff]

/-- An equation without an unknown contributes nothing; one that is tracked throughout is true. -/
theorem equationRow_sound {repair : ReceivedRepair} {width : Nat}
    (known : decoder.Known truth) (genuine : repair.Genuine truth)
    (fits : repair.payload.length ≤ width) (coupled : decoder.Coupled repair) :
    (decoder.equationRow decoder.missingSeqs width repair).toRow.Holds
        decoder.missingSeqs.length width (fun col index => unknowns truth decoder index col) ∨
      (decoder.equationRow decoder.missingSeqs width repair).toRow.Blank := by
  by_cases unknown : ∃ seq ∈ repair.seqs, decoder.sources.get? seq = some .missing
  · left
    intro index within
    have long : 2 ≤ repair.payload.length := by
      obtain ⟨seq, member, -⟩ := unknown
      have := genuine.length member
      omega
    have total : residual truth decoder (decoder.equationRow decoder.missingSeqs width repair)
        index = 0 := by
      rw [equationRow, foldl_visit_residual known long (start_shaped fits) within
        repair.seqs_nodup (coupled unknown) (fun _ _ _ _ => start_coeff _ _ _ _),
        start_residual, genuine.getD]
      exact Gf256.add_self _
    -- In characteristic two a vanishing residual is the equation itself.
    rw [residual, ← Gf256.add_self (Elimination.Row.entry _ index)] at total
    exact add_right_cancel total
  · right
    intro col
    refine equationRow_coeff (fun seq member inside => unknown ⟨seq, member, ?_⟩)
    exact (mem_missingSeqs decoder seq).mp (List.mem_of_getElem? inside)

end Residual

theorem payload_le_maxEffLen (decoder : FecDecoder) (repair : ReceivedRepair)
    (member : repair ∈ decoder.repairs) : repair.payload.length ≤ decoder.maxEffLen := by
  unfold maxEffLen
  generalize decoder.repairs = repairs at member
  induction repairs with
  | nil => simp at member
  | cons head rest ih =>
    rcases List.mem_cons.mp member with rfl | later
    · exact le_max_left _ _
    · exact (ih later).trans (le_max_right _ _)

def equationRows (decoder : FecDecoder) : List (Elimination.Row Gf256) :=
  decoder.repairs.map (fun repair =>
    (decoder.equationRow decoder.missingSeqs decoder.maxEffLen repair).toRow)

theorem equationRows_shaped (decoder : FecDecoder) :
    ∀ row ∈ decoder.equationRows, row.Shaped decoder.missingSeqs.length decoder.maxEffLen := by
  intro row member
  obtain ⟨repair, retained, rfl⟩ := List.mem_map.mp member
  exact equationRow_shaped repair _ (decoder.payload_le_maxEffLen repair retained)

/-- What a pass returns are the determined columns, each with its unknown's seq. -/
theorem oneElimPass_eq (decoder : FecDecoder) :
    decoder.oneElimPass = [] ∨
      decoder.oneElimPass =
        (Elimination.solve decoder.equationRows decoder.missingSeqs.length).filterMap
          (fun solution =>
            if solution.2.length < 2 then none
            else some (decoder.missingSeqs.getD solution.1 0,
              extractPayload (solution.2.map Gf256.byte))) := by
  unfold oneElimPass
  dsimp only
  split_ifs
  · exact Or.inl rfl
  · unfold gaussianElim
    split_ifs
    · exact Or.inl rfl
    · right
      rw [List.filterMap_map, equationRows]
      simp only [List.map_map, List.zipWith_map, List.zipWith_self]
      congr 1
      funext solution
      simp

theorem mem_oneElimPass {decoder : FecDecoder} {seq : UInt32} {payload : Payload}
    (solved : (seq, payload) ∈ decoder.oneElimPass) :
    ∃ col value, (col, value) ∈ Elimination.solve decoder.equationRows decoder.missingSeqs.length ∧
      decoder.missingSeqs[col]? = some seq ∧ payload = extractPayload (value.map Gf256.byte) := by
  rcases decoder.oneElimPass_eq with empty | pass
  · simp [empty] at solved
  · rw [pass, List.mem_filterMap] at solved
    obtain ⟨⟨col, value⟩, returned, kept⟩ := solved
    have bound := ((Elimination.mem_solve_iff decoder.equationRows_shaped col).mp
      (List.mem_map.mpr ⟨_, returned, rfl⟩)).1
    split_ifs at kept
    simp only [Option.some.injEq, Prod.mk.injEq] at kept
    refine ⟨col, value, returned, ?_, kept.2.symm⟩
    rw [← kept.1, List.getElem?_eq_getElem bound]
    simp [List.getD_eq_getElem?_getD, bound]

theorem oneElimPass_missing {decoder : FecDecoder} {seq : UInt32} {payload : Payload}
    (solved : (seq, payload) ∈ decoder.oneElimPass) :
    decoder.sources.get? seq = some .missing := by
  obtain ⟨col, -, -, position, -⟩ := mem_oneElimPass solved
  exact (mem_missingSeqs decoder seq).mp (List.mem_of_getElem? position)

/-- A solved unknown stands in some retained equation. -/
theorem oneElimPass_covered {decoder : FecDecoder} {seq : UInt32} {payload : Payload}
    (solved : (seq, payload) ∈ decoder.oneElimPass) :
    ∃ repair ∈ decoder.repairs, seq ∈ repair.seqs := by
  obtain ⟨col, value, returned, position, -⟩ := mem_oneElimPass solved
  by_contra uncovered
  push Not at uncovered
  have zero (row : Elimination.Row Gf256) (member : row ∈ decoder.equationRows) :
      row.coeff col = 0 := by
    obtain ⟨repair, retained, rfl⟩ := List.mem_map.mp member
    refine equationRow_coeff (fun other inside same => uncovered repair retained ?_)
    rw [position] at same
    rwa [Option.some.inj same]
  -- The unit vector of an untouched column is a homogeneous solution.
  have vanish := ((Elimination.mem_solve_iff decoder.equationRows_shaped col).mp
    (List.mem_map.mpr ⟨_, returned, rfl⟩)).2 (fun other => if other = col then 1 else 0)
    (fun row member => by simp [Elimination.Row.dot, zero row member])
  simp at vanish

theorem extractPayload_eq (vector : List UInt8) (payload : Payload)
    (fits : payload.length + 2 ≤ vector.length) (short : payload.length < 65536)
    (same : ∀ index < vector.length, vector.getD index 0 = (prefixed payload).getD index 0) :
    extractPayload vector = payload := by
  have low : vector.getD 0 0 = (UInt16.ofNat payload.length).toUInt8 := by
    simpa [prefixed] using same 0 (by omega)
  have high : vector.getD 1 0 = (UInt16.ofNat payload.length >>> 8).toUInt8 := by
    simpa [prefixed] using same 1 (by omega)
  have length : (vector.getD 0 0).toNat + 256 * (vector.getD 1 0).toNat = payload.length := by
    rw [low, high]
    simp [Nat.shiftRight_eq_div_pow]
    omega
  rw [extractPayload, length]
  apply List.ext_getElem?
  intro index
  rw [List.getElem?_drop, List.getElem?_take]
  by_cases within : index < payload.length
  · have byte := same (2 + index) (by omega)
    rw [Nat.add_comm 2 index] at byte ⊢
    simp [List.getD_eq_getElem?_getD, prefixed, show index + 2 < vector.length by omega,
      within] at byte
    simp [show index + 2 < 2 + payload.length by omega, within,
      show index + 2 < vector.length by omega, byte]
  · simp [show ¬ 2 + index < 2 + payload.length by omega, within]

theorem oneElimPass_sound {truth : UInt32 → Payload} {decoder : FecDecoder}
    (short : ∀ seq, (truth seq).length < 65536) (known : decoder.Known truth)
    (genuine : ∀ repair ∈ decoder.repairs, repair.Genuine truth)
    (coupled : ∀ repair ∈ decoder.repairs, decoder.Coupled repair) {seq : UInt32}
    {payload : Payload} (solved : (seq, payload) ∈ decoder.oneElimPass) : payload = truth seq := by
  obtain ⟨repair, retained, member⟩ := oneElimPass_covered solved
  obtain ⟨col, vector, returned, position, rfl⟩ := mem_oneElimPass solved
  have holds (row : Elimination.Row Gf256) (member : row ∈ decoder.equationRows) :
      row.Holds decoder.missingSeqs.length decoder.maxEffLen
        (fun col index => unknowns truth decoder index col) ∨ row.Blank := by
    obtain ⟨repair, retained, rfl⟩ := List.mem_map.mp member
    exact equationRow_sound known (genuine repair retained)
      (decoder.payload_le_maxEffLen repair retained) (coupled repair retained)
  obtain ⟨-, width, values⟩ := Elimination.solve_sound decoder.equationRows_shaped holds returned
  have long := (genuine repair retained).length member
  have fits := decoder.payload_le_maxEffLen repair retained
  refine extractPayload_eq _ _ (by simp; omega) (short seq) ?_
  intro index within
  rw [List.length_map, width] at within
  have value := congrArg Gf256.byte (values index within)
  simp only [unknowns, List.getD_eq_getElem?_getD, position, Option.getD_some, effByte] at value
  rw [List.getD_eq_getElem?_getD, List.getD_eq_getElem?_getD, ← value, List.getElem?_map]
  cases vector[index]? <;> rfl

theorem oneElimPass_nodup (decoder : FecDecoder) : (decoder.oneElimPass.map Prod.fst).Nodup := by
  rcases decoder.oneElimPass_eq with empty | pass
  · simp [empty]
  · have increasing := Elimination.solve_increasing decoder.equationRows_shaped
    have bound (solution : Nat × List Gf256)
        (member : solution ∈ Elimination.solve decoder.equationRows decoder.missingSeqs.length) :
        solution.1 < decoder.missingSeqs.length :=
      ((Elimination.mem_solve_iff decoder.equationRows_shaped solution.1).mp
        (List.mem_map.mpr ⟨_, member, rfl⟩)).1
    have value (solution : Nat × List Gf256) (inside : solution.1 < decoder.missingSeqs.length)
        (seq : UInt32) (kept : Option.map Prod.fst (if solution.2.length < 2 then none
          else some (decoder.missingSeqs.getD solution.1 0,
            extractPayload (solution.2.map Gf256.byte))) = some seq) :
        decoder.missingSeqs[solution.1] = seq := by
      by_cases tiny : solution.2.length < 2
      · simp [tiny] at kept
      · simpa [tiny, List.getD_eq_getElem?_getD, inside] using kept
    have sorted : decoder.missingSeqs.Pairwise (· < ·) := OrdMap.keys_sorted _
    rw [pass, List.map_filterMap]
    refine (List.pairwise_filterMap.mpr ((List.pairwise_map.mp increasing).imp_of_mem ?_))
    intro left right leftMember rightMember less first firstKept second secondKept same
    have leftBound := bound left leftMember
    have rightBound := bound right rightMember
    have ordered := List.pairwise_iff_getElem.mp sorted left.1 right.1 leftBound rightBound less
    rw [value left leftBound first firstKept, value right rightBound second secondKept,
      same] at ordered
    exact lt_irrefl _ ordered

theorem get?_insertBatch (batch : List (UInt32 × Payload)) (distinct : (batch.map Prod.fst).Nodup)
    (sources : OrdMap UInt32 SourceState) (seq : UInt32) :
    (batch.foldl (fun sources solved => sources.insert solved.1 (.recovered solved.2))
        sources).get? seq =
      match batch.find? (fun solved => solved.1 = seq) with
      | some solved => some (.recovered solved.2)
      | none => sources.get? seq := by
  induction batch generalizing sources with
  | nil => rfl
  | cons head rest ih =>
    rw [List.map_cons, List.nodup_cons] at distinct
    rw [List.foldl_cons, ih distinct.2]
    by_cases same : head.1 = seq
    · have absent : rest.find? (fun solved => solved.1 = seq) = none := by
        refine List.find?_eq_none.mpr (fun solved member equal => distinct.1 ?_)
        rw [same, ← of_decide_eq_true equal]
        exact List.mem_map.mpr ⟨solved, member, rfl⟩
      simp [absent, same, OrdMap.get?_insert]
    · have other : seq ≠ head.1 := Ne.symm same
      simp [same, other, OrdMap.get?_insert]

/-- One round of the recovery loop: it stops, or absorbs a pass and goes on. -/
theorem tryRecoverLoop_cases (fuel : Nat) (decoder : FecDecoder) :
    tryRecoverLoop (fuel + 1) decoder = (decoder, []) ∨
      (decoder.accounting.retainedBytes +
          (decoder.oneElimPass.map (fun solved => solved.2.length)).sum ≤ decoder.maxBytes ∧
        decoder.oneElimPass ≠ [] ∧
        tryRecoverLoop (fuel + 1) decoder =
          ((tryRecoverLoop fuel (decoder.absorb decoder.oneElimPass)).1,
            decoder.oneElimPass ++ (tryRecoverLoop fuel (decoder.absorb decoder.oneElimPass)).2)) := by
  rw [tryRecoverLoop]
  dsimp only
  split_ifs with empty tight
  · exact Or.inl rfl
  · exact Or.inl rfl
  · exact Or.inr ⟨by omega, by simpa using empty, rfl⟩

/-- The rule for recovery: what absorbing a pass keeps, the whole loop keeps. -/
theorem tryRecover_invariant (invariant : List (UInt32 × Payload) → FecDecoder → Prop)
    (preserved : ∀ recovered decoder, invariant recovered decoder →
      decoder.accounting.retainedBytes +
        (decoder.oneElimPass.map (fun solved => solved.2.length)).sum ≤ decoder.maxBytes →
      invariant (recovered ++ decoder.oneElimPass) (decoder.absorb decoder.oneElimPass))
    (decoder : FecDecoder) (initial : invariant [] decoder) :
    invariant decoder.tryRecover.2 decoder.tryRecover.1 := by
  have loop (fuel : Nat) (recovered : List (UInt32 × Payload)) (decoder : FecDecoder)
      (held : invariant recovered decoder) :
      invariant (recovered ++ (tryRecoverLoop fuel decoder).2) (tryRecoverLoop fuel decoder).1 := by
    induction fuel generalizing recovered decoder with
    | zero => simpa [tryRecoverLoop] using held
    | succ fuel ih =>
      obtain stop | ⟨fits, -, next⟩ := tryRecoverLoop_cases fuel decoder
      · simpa [stop] using held
      · rw [next]
        simpa [List.append_assoc] using ih _ _ (preserved recovered decoder held fits)
  simpa [tryRecover] using loop _ [] decoder initial

theorem get?_absorb (decoder : FecDecoder) (seq : UInt32) :
    (decoder.absorb decoder.oneElimPass).sources.get? seq =
      match decoder.oneElimPass.find? (fun solved => solved.1 = seq) with
      | some solved => some (.recovered solved.2)
      | none => decoder.sources.get? seq :=
  get?_insertBatch _ decoder.oneElimPass_nodup _ _

/-- Recovery from true equations that are still coupled to their sources yields true payloads. -/
theorem tryRecover_sound {truth : UInt32 → Payload} {decoder : FecDecoder}
    (short : ∀ seq, (truth seq).length < 65536) (known : decoder.Known truth)
    (genuine : ∀ repair ∈ decoder.repairs, repair.Genuine truth)
    (coupled : ∀ repair ∈ decoder.repairs, decoder.Coupled repair) :
    (∀ solved ∈ decoder.tryRecover.2, solved.2 = truth solved.1) ∧
      decoder.tryRecover.1.Known truth ∧ decoder.tryRecover.1.repairs = decoder.repairs := by
  have kept := tryRecover_invariant (fun recovered current =>
    (∀ solved ∈ recovered, solved.2 = truth solved.1) ∧ current.Known truth ∧
      (∀ repair ∈ decoder.repairs, current.Coupled repair) ∧ current.repairs = decoder.repairs)
    ?_ decoder ⟨by simp, known, coupled, rfl⟩
  · exact ⟨kept.1, kept.2.1, kept.2.2.2⟩
  · rintro recovered current ⟨right, known, coupled, same⟩ -
    have solved (seq : UInt32) (payload : Payload) (member : (seq, payload) ∈ current.oneElimPass) :
        payload = truth seq :=
      oneElimPass_sound short known (same ▸ genuine) (same ▸ coupled) member
    refine ⟨?_, ?_, ?_, same⟩
    · intro pair member
      rcases List.mem_append.mp member with old | new
      · exact right pair old
      · exact solved pair.1 pair.2 new
    · intro seq state payload found held
      rw [get?_absorb] at found
      split at found
      · next pair inside =>
          have member := List.mem_of_find?_eq_some inside
          have equal : pair.1 = seq := by simpa using List.find?_some inside
          rw [← Option.some.inj found, SourceState.payload] at held
          rw [← equal, ← solved pair.1 pair.2 member, ← Option.some.inj held]
      · exact known seq state payload found held
    · rintro repair retained ⟨seq, member, unknown⟩ other inside
      have before : current.sources.get? seq = some .missing := by
        rw [get?_absorb] at unknown
        split at unknown
        · cases unknown
        · exact unknown
      have tracked := coupled repair retained ⟨seq, member, before⟩ other inside
      rw [get?_absorb]
      split
      · exact Option.some_ne_none _
      · exact tracked

-- What recovery does to the state: some `missing` entries become recovered ones.
structure Recovers (before after : FecDecoder) (recovered : List (UInt32 × Payload)) : Prop where
  kept : ∀ seq, (∀ payload, (seq, payload) ∉ recovered) →
    after.sources.get? seq = before.sources.get? seq
  filled : ∀ solved ∈ recovered, before.sources.get? solved.1 = some .missing ∧
    after.sources.get? solved.1 = some (.recovered solved.2)
  distinct : (recovered.map Prod.fst).Nodup
  repairs : after.repairs = before.repairs
  seenRepairKeys : after.seenRepairKeys = before.seenRepairKeys
  highestContiguous : after.highestContiguous = before.highestContiguous

theorem tryRecover_recovers (decoder : FecDecoder) :
    decoder.Recovers decoder.tryRecover.1 decoder.tryRecover.2 := by
  refine tryRecover_invariant (fun recovered current => decoder.Recovers current recovered) ?_
    decoder ⟨fun _ _ => rfl, by simp, by simp, rfl, rfl, rfl⟩
  intro recovered current held _
  have solved (pair : UInt32 × Payload) (member : pair ∈ current.oneElimPass) :
      current.sources.get? pair.1 = some .missing := oneElimPass_missing member
  have old (pair : UInt32 × Payload) (member : pair ∈ recovered) :
      ∀ payload, (pair.1, payload) ∉ current.oneElimPass := by
    intro payload inside
    have missing := solved _ inside
    rw [(held.filled pair member).2] at missing
    simp at missing
  have unsolved (seq : UInt32) (absent : ∀ payload, (seq, payload) ∉ current.oneElimPass) :
      (current.absorb current.oneElimPass).sources.get? seq = current.sources.get? seq := by
    have none : current.oneElimPass.find? (fun pair => pair.1 = seq) = none := by
      refine List.find?_eq_none.mpr (fun pair member same => absent pair.2 ?_)
      rw [← of_decide_eq_true same]
      exact member
    rw [get?_absorb, none]
  refine ⟨?_, ?_, ?_, held.repairs, held.seenRepairKeys, held.highestContiguous⟩
  · intro seq absent
    rw [unsolved seq (fun payload member => absent payload (List.mem_append_right _ member)),
      held.kept seq (fun payload member => absent payload (List.mem_append_left _ member))]
  · intro pair member
    rcases List.mem_append.mp member with before | now
    · rw [unsolved pair.1 (old pair before)]
      exact held.filled pair before
    · have fresh (payload : Payload) : (pair.1, payload) ∉ recovered := fun inside =>
        old _ inside pair.2 now
      refine ⟨by rw [← held.kept pair.1 fresh, solved pair now], ?_⟩
      have found : current.oneElimPass.find? (fun other => other.1 = pair.1) = some pair := by
        cases chosen : current.oneElimPass.find? (fun other => other.1 = pair.1) with
        | none => simpa using List.find?_eq_none.mp chosen pair now
        | some other =>
          have same : other.1 = pair.1 := by simpa using List.find?_some chosen
          rw [List.inj_on_of_nodup_map current.oneElimPass_nodup
            (List.mem_of_find?_eq_some chosen) now same]
      rw [get?_absorb, found]
  · rw [List.map_append]
    refine List.Nodup.append held.distinct current.oneElimPass_nodup (fun seq left right => ?_)
    obtain ⟨first, before, rfl⟩ := List.mem_map.mp left
    obtain ⟨second, now, same⟩ := List.mem_map.mp right
    exact old first before second.2 (same ▸ now)

theorem Recovers.known {before after : FecDecoder} {recovered : List (UInt32 × Payload)}
    (recovers : before.Recovers after recovered) {seq : UInt32} {state : SourceState}
    (found : after.sources.get? seq = some state) :
    before.sources.get? seq = some state ∨ ∃ payload, (seq, payload) ∈ recovered := by
  by_cases solved : ∃ payload, (seq, payload) ∈ recovered
  · exact Or.inr solved
  · push Not at solved
    exact Or.inl (by rw [← recovers.kept seq solved, found])

theorem Recovers.tracked {before after : FecDecoder} {recovered : List (UInt32 × Payload)}
    (recovers : before.Recovers after recovered) (seq : UInt32) :
    after.sources.get? seq = none ↔ before.sources.get? seq = none := by
  by_cases solved : ∃ payload, (seq, payload) ∈ recovered
  · obtain ⟨payload, member⟩ := solved
    have filled := recovers.filled _ member
    simp_all
  · push Not at solved
    rw [recovers.kept seq solved]

end FecDecoder

end BetterParsec
