import BetterParsec.Fec.Soundness

set_option autoImplicit false
set_option linter.all false

/-!
# Recovery power

A retained equation in which a single source is unknown gives that source back,
in the very call that left it alone.
-/

namespace BetterParsec

namespace FecDecoder

-- The one source of the equation the decoder waits for.
structure Alone (decoder : FecDecoder) (repair : ReceivedRepair) (seq : UInt32) : Prop where
  inside : seq ∈ repair.seqs
  missing : decoder.sources.get? seq = some .missing
  others : ∀ other ∈ repair.seqs, other ≠ seq → decoder.sources.get? other ≠ some .missing

-- The sources and the equations are within the symbol cap, and what is retained is within the
-- byte cap together with the scratch of a pass.
structure Roomy (decoder : FecDecoder) : Prop where
  sources : decoder.sources.size ≤ 128
  repairs : decoder.repairs.length ≤ 128
  bytes : decoder.accounting.retainedBytes + decoder.elimScratch decoder.missingSeqs.length ≤
    decoder.maxBytes

instance (decoder : FecDecoder) : Decidable decoder.Roomy :=
  decidable_of_iff (decoder.sources.size ≤ 128 ∧ decoder.repairs.length ≤ 128 ∧
      decoder.accounting.retainedBytes + decoder.elimScratch decoder.missingSeqs.length ≤
        decoder.maxBytes)
    ⟨fun held => ⟨held.1, held.2.1, held.2.2⟩, fun roomy => ⟨roomy.1, roomy.2, roomy.3⟩⟩

section Pass

variable {decoder : FecDecoder} {repair : ReceivedRepair} {seq : UInt32} {truth : UInt32 → Payload}

/-- The column of a missing source of the window holds its coefficient. -/
theorem equationRow_coeff_missing {width col : Nat} (fits : repair.payload.length ≤ width)
    (inside : seq ∈ repair.seqs)
    (position : decoder.missingSeqs.idxOf? seq = some col) :
    (decoder.equationRow decoder.missingSeqs width repair).toRow.coeff col =
      ⟨gfCoeff repair.repairSeq seq⟩ := by
  obtain ⟨bound, same, -⟩ := List.idxOf?_eq_some_iff.mp position
  have missing : decoder.sources.get? seq = some .missing :=
    (mem_missingSeqs decoder seq).mp (same ▸ List.getElem_mem bound)
  have column : decoder.missingSeqs[col]? = some seq := by
    rw [List.getElem?_eq_getElem bound, same]
  obtain ⟨before, after, split⟩ := List.append_of_mem inside
  have distinct := repair.seqs_nodup
  rw [split] at distinct
  have apart : seq ∉ after := (List.nodup_cons.mp (List.Nodup.of_append_right distinct)).1
  have rest (other : UInt32) (member : other ∈ after) :
      decoder.missingSeqs[col]? ≠ some other := by
    rw [column]
    intro equal
    exact apart (Option.some.inj equal ▸ member)
  rw [equationRow, split, List.foldl_append, List.foldl_cons, foldl_visit_coeff after rest]
  -- The visit of the source itself sets the column, whatever was visited before.
  have shaped : (before.foldl (EquationRow.visit decoder.sources decoder.missingSeqs repair)
      (.start decoder.missingSeqs.length width repair)).toRow.Shaped decoder.missingSeqs.length
        width := foldl_visit_shaped (start_shaped fits) before
  generalize before.foldl (EquationRow.visit decoder.sources decoder.missingSeqs repair)
    (.start decoder.missingSeqs.length width repair) = row at shaped
  have columns : col < row.coeffs.length := by
    rw [← List.length_map (f := Gf256.mk)]
    exact shaped.1.symm ▸ bound
  obtain ⟨absent, -⟩ | ⟨state, payload, found, held, -⟩ | ⟨-, place, found, result⟩ |
      ⟨-, absent, -⟩ := visit_cases decoder.sources decoder.missingSeqs repair row seq
  · exact absurd (missing.symm.trans absent) (Option.some_ne_none _)
  · rw [Option.some.inj (found.symm.trans missing)] at held
    exact absurd held.symm (Option.some_ne_none _)
  · rw [Option.some.inj (found.symm.trans position)] at result
    rw [result, EquationRow.coeff_toRow, List.getD_eq_getElem _ _ (by simpa using columns),
      List.getElem_set_self]
  · exact absurd ((mem_missingSeqs decoder seq).mpr missing) absent

/-- A source that is alone in a retained equation is solved by the elimination. -/
theorem Alone.solved (alone : decoder.Alone repair seq) (retained : repair ∈ decoder.repairs)
    {col : Nat} (position : decoder.missingSeqs.idxOf? seq = some col) :
    col ∈ (Elimination.solve decoder.equationRows decoder.missingSeqs.length).map Prod.fst := by
  obtain ⟨bound, same, -⟩ := List.idxOf?_eq_some_iff.mp position
  have fits := decoder.payload_le_maxEffLen repair retained
  rw [Elimination.mem_solve_iff decoder.equationRows_shaped]
  refine ⟨bound, fun x homogeneous => ?_⟩
  have equation := homogeneous _ (List.mem_map.mpr ⟨repair, retained, rfl⟩)
  -- All other columns of this row are zero.
  have zero (other : Nat) (within : other ∈ Finset.range decoder.missingSeqs.length)
      (distinct : other ≠ col) : (decoder.equationRow decoder.missingSeqs decoder.maxEffLen
        repair).toRow.coeff other * x other = 0 := by
    rw [equationRow_coeff, zero_mul]
    intro covered member unknown
    rw [List.getElem?_eq_getElem (Finset.mem_range.mp within)] at unknown
    have absent : decoder.sources.get? covered = some .missing :=
      (mem_missingSeqs decoder covered).mp
        (Option.some.inj unknown ▸ List.getElem_mem (Finset.mem_range.mp within))
    have only : covered = seq := by
      by_contra apart
      exact alone.others covered member apart absent
    apply distinct
    have small : other < decoder.missingSeqs.length := Finset.mem_range.mp within
    have values : decoder.missingSeqs[other] = decoder.missingSeqs[col] := by
      rw [Option.some.inj unknown, only, same]
    exact (List.Nodup.getElem_inj_iff (OrdMap.keys_nodup _)).mp values
  rw [Elimination.Row.dot, Finset.sum_eq_single_of_mem col (Finset.mem_range.mpr bound) zero,
    equationRow_coeff_missing fits alone.inside position] at equation
  refine (mul_eq_zero.mp equation).resolve_left fun vanishes => ?_
  have nonzero := gfCoeff_ne_zero repair.repairSeq seq
  generalize gfCoeff repair.repairSeq seq = coeff at vanishes nonzero
  have byte := congrArg Gf256.byte vanishes
  rw [Gf256.byte_zero] at byte
  exact nonzero byte

theorem missingSeqs_length_le (decoder : FecDecoder) :
    decoder.missingSeqs.length ≤ decoder.sources.size := by
  apply OrdMap.length_le_size _ _ (OrdMap.keys_nodup _)
  intro seq member
  rw [(mem_missingSeqs decoder seq).mp member]
  exact Option.some_ne_none _

/-- Within the caps a pass returns all that the elimination determines. -/
theorem oneElimPass_of_roomy (roomy : decoder.Roomy) (repairs : decoder.repairs ≠ [])
    (missing : decoder.missingSeqs ≠ []) (wide : decoder.maxEffLen ≠ 0) :
    decoder.oneElimPass =
      (Elimination.solve decoder.equationRows decoder.missingSeqs.length).filterMap
        (fun solution =>
          if solution.2.length < 2 then none
          else some (decoder.missingSeqs.getD solution.1 0,
            extractPayload (solution.2.map Gf256.byte))) := by
  have unknowns := (missingSeqs_length_le decoder).trans roomy.sources
  have gate : (decoder.repairs.isEmpty || decoder.missingSeqs.isEmpty ||
      decide (decoder.maxEffLen = 0) || decide (decoder.missingSeqs.length > 128) ||
      decide (decoder.repairs.length > 128) ||
      decide (decoder.accounting.retainedBytes + decoder.elimScratch decoder.missingSeqs.length >
        decoder.maxBytes)) = false := by
    simp only [Bool.or_eq_false_iff, List.isEmpty_eq_false_iff, decide_eq_false_iff_not,
      Nat.not_lt]
    exact ⟨⟨⟨⟨⟨repairs, missing⟩, wide⟩, unknowns⟩, roomy.repairs⟩, roomy.bytes⟩
  unfold oneElimPass
  dsimp only
  rw [gate, if_neg Bool.false_ne_true, gaussianElim, if_neg (by simp [repairs, missing, wide]),
    List.filterMap_map, equationRows]
  simp only [List.map_map, List.zipWith_map, List.zipWith_self]
  congr 1
  funext solution
  simp

theorem extractPayload_length_le (vector : List UInt8) :
    (extractPayload vector).length ≤ vector.length := by
  rw [extractPayload, List.length_drop, List.length_take]
  omega

/-- What a pass returns takes no more bytes than its scratch. -/
theorem oneElimPass_bytes_le (widths : ∀ solution ∈ Elimination.solve decoder.equationRows
      decoder.missingSeqs.length, solution.2.length = decoder.maxEffLen) :
    (decoder.oneElimPass.map (fun solved => solved.2.length)).sum ≤
      decoder.elimScratch decoder.missingSeqs.length := by
  have each : ∀ size ∈ decoder.oneElimPass.map (fun solved => solved.2.length),
      size ≤ decoder.maxEffLen := by
    intro size member
    obtain ⟨⟨seq, payload⟩, solved, rfl⟩ := List.mem_map.mp member
    obtain ⟨col, value, returned, -, rfl⟩ := mem_oneElimPass solved
    have length := extractPayload_length_le (value.map Gf256.byte)
    rw [List.length_map, widths _ returned] at length
    exact length
  have few : decoder.oneElimPass.length ≤ decoder.repairs.length := by
    have rows := Elimination.solve_length_le decoder.equationRows decoder.missingSeqs.length
    rw [equationRows, List.length_map] at rows
    rcases decoder.oneElimPass_eq with empty | pass
    · rw [empty]
      exact Nat.zero_le _
    · rw [pass]
      exact (List.length_filterMap_le _ _).trans rows
  calc (decoder.oneElimPass.map (fun solved => solved.2.length)).sum
      ≤ decoder.oneElimPass.length * decoder.maxEffLen := by
        simpa using List.sum_le_card_nsmul _ _ each
    _ ≤ decoder.repairs.length * decoder.maxEffLen := Nat.mul_le_mul_right _ few
    _ ≤ decoder.elimScratch decoder.missingSeqs.length := by
        rw [elimScratch, Nat.mul_add]
        omega

/-- A pass gives back every source that is alone in a retained equation, and there is room for all
that it gives back. -/
theorem Alone.pass (alone : decoder.Alone repair seq) (retained : repair ∈ decoder.repairs)
    (short : ∀ seq, (truth seq).length < 65536) (sound : decoder.Sound truth)
    (coupled : ∀ repair ∈ decoder.repairs, decoder.Coupled repair) (roomy : decoder.Roomy) :
    (seq, truth seq) ∈ decoder.oneElimPass ∧
      decoder.accounting.retainedBytes +
        (decoder.oneElimPass.map (fun solved => solved.2.length)).sum ≤ decoder.maxBytes := by
  have member : seq ∈ decoder.missingSeqs := (mem_missingSeqs decoder seq).mpr alone.missing
  obtain ⟨col, position⟩ : ∃ col, decoder.missingSeqs.idxOf? seq = some col :=
    Option.ne_none_iff_exists'.mp fun none => List.idxOf?_eq_none_iff.mp none member
  obtain ⟨bound, same, -⟩ := List.idxOf?_eq_some_iff.mp position
  have long : 2 ≤ decoder.maxEffLen := by
    have covered := (sound.genuine repair retained).length alone.inside
    have fits := decoder.payload_le_maxEffLen repair retained
    omega
  have holds (row : Elimination.Row Gf256) (listed : row ∈ decoder.equationRows) :
      row.Holds decoder.missingSeqs.length decoder.maxEffLen
        (fun col index => unknowns truth decoder index col) ∨ row.Blank := by
    obtain ⟨other, kept, rfl⟩ := List.mem_map.mp listed
    exact equationRow_sound sound.known (sound.genuine other kept)
      (decoder.payload_le_maxEffLen other kept) (coupled other kept)
  have widths (solution : Nat × List Gf256) (solved : solution ∈ Elimination.solve
      decoder.equationRows decoder.missingSeqs.length) :
      solution.2.length = decoder.maxEffLen :=
    (Elimination.solve_sound decoder.equationRows_shaped holds solved).2.1
  have fits := oneElimPass_bytes_le widths
  have bytes := roomy.bytes
  refine ⟨?_, by omega⟩
  obtain ⟨⟨_, value⟩, returned, rfl⟩ := List.mem_map.mp (alone.solved retained position)
  have found : (seq, extractPayload (value.map Gf256.byte)) ∈ decoder.oneElimPass := by
    rw [oneElimPass_of_roomy roomy (List.ne_nil_of_mem retained) (List.ne_nil_of_mem member)
      (by omega), List.mem_filterMap]
    refine ⟨_, returned, ?_⟩
    rw [if_neg (by rw [widths _ returned]; omega), List.getD_eq_getElem _ _ bound, same]
  rw [oneElimPass_sound short sound.known sound.genuine coupled found] at found
  exact found

/-- Recovery reports every source that is alone in a retained equation. -/
theorem Alone.settle (alone : decoder.Alone repair seq) (retained : repair ∈ decoder.repairs)
    (short : ∀ seq, (truth seq).length < 65536) (sound : decoder.Sound truth)
    (coupled : ∀ repair ∈ decoder.repairs, decoder.Coupled repair) (roomy : decoder.Roomy) :
    .recovered seq (truth seq) true ∈ decoder.settle.2 := by
  obtain ⟨found, fits⟩ := alone.pass retained short sound coupled roomy
  have recovered : (seq, truth seq) ∈ decoder.tryRecover.2 := by
    rw [tryRecover, tryRecoverLoop]
    dsimp only
    rw [if_neg (by simpa using List.ne_nil_of_mem found), if_neg (Nat.not_lt.mpr fits)]
    exact List.mem_append_left _ found
  exact List.mem_append_left _ (List.mem_map.mpr ⟨_, recovered, rfl⟩)

end Pass

-- The decoder has the payload of the source.
def Knows (decoder : FecDecoder) (seq : UInt32) : Prop :=
  (decoder.sources.get? seq).any SourceState.isKnown

instance (decoder : FecDecoder) (seq : UInt32) : Decidable (decoder.Knows seq) :=
  inferInstanceAs (Decidable (_ = true))

-- Every source of a window is known but those in `except`.
def KnowsAllBut (decoder : FecDecoder) (except seqs : List UInt32) : Prop :=
  ∀ seq ∈ seqs, seq ∈ except ∨ decoder.Knows seq

instance (decoder : FecDecoder) (except seqs : List UInt32) :
    Decidable (decoder.KnowsAllBut except seqs) :=
  List.decidableBAll _ _

-- The caps leave room for the symbol and for the pass that follows it.
def HasRoom (decoder : FecDecoder) : Symbol → Prop
  | .source seq payload =>
      decoder.overSymbols (decoder.sourceDeltas seq payload) = false ∧
        decoder.overBytes (decoder.sourceDeltas seq payload) = false ∧
        (decoder.storeSource seq payload).1.Roomy
  | .repair repairSeq windowBase windowEnd payload =>
      ∀ stored ∈ decoder.storeRepair ⟨repairSeq, windowBase, windowEnd, payload⟩, stored.1.Roomy

instance (decoder : FecDecoder) : (symbol : Symbol) → Decidable (decoder.HasRoom symbol)
  | .source _ _ => inferInstanceAs (Decidable (_ ∧ _ ∧ _))
  | .repair repairSeq windowBase windowEnd payload =>
      match stores : decoder.storeRepair ⟨repairSeq, windowBase, windowEnd, payload⟩ with
      | none => .isTrue fun _ member => absurd (stores.symm.trans member) nofun
      | some stored =>
          decidable_of_iff stored.1.Roomy
            ⟨fun roomy _ member => Option.some.inj (stores.symm.trans member) ▸ roomy,
              fun room => room stored stores⟩

-- An accepted repair all of whose sources but `seq` are known, or a new source with which all
-- sources of a retained equation but the awaited `seq` are known.
def LeavesAlone (decoder : FecDecoder) (seq : UInt32) : Symbol → Prop
  | .source arrived payload =>
      decoder.Stores arrived payload ∧ seq ≠ arrived ∧
        decoder.sources.get? seq = some .missing ∧
        ∃ repair ∈ decoder.repairs, seq ∈ repair.seqs ∧
          decoder.KnowsAllBut [seq, arrived] repair.seqs
  | .repair repairSeq windowBase windowEnd payload =>
      decoder.acceptsRepair ⟨repairSeq, windowBase, windowEnd, payload⟩ ∧
        decoder.storeRepair ⟨repairSeq, windowBase, windowEnd, payload⟩ ≠ none ∧
        seq ∈ windowSeqs windowBase windowEnd ∧ ¬ decoder.Knows seq ∧
        decoder.KnowsAllBut [seq] (windowSeqs windowBase windowEnd)

instance (decoder : FecDecoder) (seq : UInt32) :
    (symbol : Symbol) → Decidable (decoder.LeavesAlone seq symbol)
  | .source _ _ => inferInstanceAs (Decidable (_ ∧ _ ∧ _ ∧ ∃ repair ∈ decoder.repairs, _))
  | .repair _ _ _ _ => inferInstanceAs (Decidable (_ ∧ _ ∧ _ ∧ _ ∧ _))

section Push

variable {decoder : FecDecoder} {truth : UInt32 → Payload}

theorem makeRoom_of_fits {added : Added} (symbols : decoder.overSymbols added = false)
    (bytes : decoder.overBytes added = false) : decoder.makeRoom added = (decoder, []) := by
  rw [makeRoom]
  cases decoder.repairs.length + decoder.sources.size with
  | zero => rfl
  | succ fuel =>
    rw [makeRoomLoop, symbols, bytes]
    rfl

theorem Knows.not_missing {seq : UInt32} (knows : decoder.Knows seq) :
    decoder.sources.get? seq ≠ some .missing := by
  intro missing
  rw [Knows, missing] at knows
  exact absurd knows (by decide)

theorem Knows.tracked {seq : UInt32} (knows : decoder.Knows seq) :
    decoder.sources.get? seq ≠ none := by
  intro absent
  rw [Knows, absent] at knows
  exact absurd knows (by decide)

theorem knows_of_payload {seq : UInt32} {state : SourceState}
    (found : decoder.sources.get? seq = some state) (known : state.isKnown) :
    decoder.Knows seq := by
  rw [Knows, found]
  exact known

/-- The source that leaves one unknown of a retained equation brings that one back. -/
theorem pushSource_recovers {seq arrived : UInt32} {payload : Payload}
    (short : ∀ seq, (truth seq).length < 65536) (sound : decoder.Sound truth)
    (right : payload = truth arrived)
    (coupled : NativeCoupled decoder (.source arrived payload))
    (room : decoder.HasRoom (.source arrived payload))
    (alone : decoder.LeavesAlone seq (.source arrived payload)) :
    .recovered seq (truth seq) true ∈ (decoder.pushSource arrived payload).2 := by
  obtain ⟨stores, apart, missing, repair, retained, inside, others⟩ := alone
  obtain ⟨symbols, bytes, roomy⟩ := room
  have fitting := makeRoom_of_fits symbols bytes
  have coupled := coupled stores
  rw [fitting] at coupled
  have sources : (decoder.storeSource arrived payload).1.sources =
      decoder.sources.insert arrived (.received payload) := by simp [storeSource, fitting]
  have repairs : (decoder.storeSource arrived payload).1.repairs = decoder.repairs := by
    simp [storeSource, fitting]
  have lone : (decoder.storeSource arrived payload).1.Alone repair seq := by
    refine ⟨inside, ?_, fun other member distinct => ?_⟩
    · rw [sources, OrdMap.get?_insert, if_neg apart, missing]
    · rw [sources, OrdMap.get?_insert]
      split_ifs with same
      · simp
      · exact ((others other member).resolve_left (by simp [distinct, same])).not_missing
  have emitted := lone.settle (repairs ▸ retained) short
    (insert_received_sound sound right sources repairs)
    (coupled_of_insert sources repairs coupled) roomy
  obtain ⟨large, -⟩ | ⟨⟨state, found, known⟩, -⟩ | ⟨-, result⟩ :=
    decoder.pushSource_cases arrived payload
  · exact absurd stores.1 (Nat.not_le.mpr large)
  · rcases stores.2 with absent | waiting
    · exact absurd (absent.symm.trans found) (Option.some_ne_none _).symm
    · exact absurd waiting (knows_of_payload found known).not_missing
  · rw [result]
    exact List.mem_append_right _ emitted

/-- Rolling keeps the sources of the window. -/
theorem get?_rollForRepair {windowBase windowEnd seq : UInt32}
    (inside : seq ∈ windowSeqs windowBase windowEnd) :
    (decoder.rollForRepair windowBase (windowEnd - windowBase)).1.sources.get? seq =
      decoder.sources.get? seq := by
  rw [mem_windowSeqs] at inside
  unfold rollForRepair
  split_ifs
  · rfl
  · have kept : seqInWindow seq windowBase (windowEnd - windowBase) = true :=
      decide_eq_true inside
    rw [OrdMap.get?_filter, kept]
    cases decoder.sources.get? seq <;> rfl

/-- The repair with one unknown source brings it back. -/
theorem pushRepair_recovers {seq : UInt32} {repairSeq : UInt16} {windowBase windowEnd : UInt32}
    {payload : Payload} (short : ∀ seq, (truth seq).length < 65536) (sound : decoder.Sound truth)
    (genuine : Symbol.Genuine truth (.repair repairSeq windowBase windowEnd payload))
    (room : decoder.HasRoom (.repair repairSeq windowBase windowEnd payload))
    (alone : decoder.LeavesAlone seq (.repair repairSeq windowBase windowEnd payload)) :
    .recovered seq (truth seq) true ∈
      (decoder.pushRepair ⟨repairSeq, windowBase, windowEnd, payload⟩).2 := by
  obtain ⟨accepted, planned, inside, unknown, others⟩ := alone
  obtain ⟨nonempty, genuine⟩ := genuine
  obtain ⟨⟨stored, events⟩, stores⟩ := Option.ne_none_iff_exists'.mp planned
  obtain ⟨⟨fitted, admitted⟩, -⟩ := storeRepair_some stores
  have narrow : windowEnd - windowBase ≤ 128 := by
    simp only [acceptsRepair, Bool.and_eq_true, Bool.not_eq_true', Bool.or_eq_false_iff,
      decide_eq_false_iff_not] at accepted
    simpa using accepted.1.1.1.2
  have held (other : UInt32) (member : other ∈ windowSeqs windowBase windowEnd) :
      stored.sources.get? other =
        if decoder.sources.get? other = none then some .missing else decoder.sources.get? other := by
    have rolled : (decoder.rollForRepair windowBase (windowEnd - windowBase)).1.sources.get? other =
        decoder.sources.get? other := get?_rollForRepair member
    rw [admitted.sources, get?_registerMissing, admitted.roomSources]
    simp only at rolled ⊢
    rw [rolled]
    exact if_congr (and_iff_left member) rfl rfl
  have lone : stored.Alone ⟨repairSeq, windowBase, windowEnd, payload⟩ seq := by
    refine ⟨inside, ?_, fun other member distinct => ?_⟩
    · rw [held seq inside]
      cases found : decoder.sources.get? seq with
      | none => rfl
      | some state =>
        rw [if_neg (Option.some_ne_none _)]
        cases state with
        | missing => rfl
        | received held => exact absurd (knows_of_payload found rfl) unknown
        | recovered held => exact absurd (knows_of_payload found rfl) unknown
    · have knows := (others other member).resolve_left (by simp [distinct])
      rw [held other member, if_neg knows.tracked]
      exact knows.not_missing
  have storedSound := ((sound.within (decoder.rollForRepair_within windowBase
    (windowEnd - windowBase))).within admitted.retained).register admitted.sources admitted.repairs
      genuine narrow
  have emitted := lone.settle (by simp [admitted.repairs]) short storedSound
    (fun other retained _ => admitted.tracked sound.narrow nonempty narrow other retained)
    (room (stored, events) stores)
  have result : (decoder.pushRepair ⟨repairSeq, windowBase, windowEnd, payload⟩).2 =
      events ++ stored.settle.2 := by
    rw [pushRepair, if_pos accepted, admitRepair, stores]
  rw [result]
  exact List.mem_append_right _ emitted

end Push

end FecDecoder

/-- In a decoder that holds what an encoder sent, an accepted repair with one unknown source, and a
source that leaves one awaited source in a retained equation, bring the payload of that source back
in the same call. Every run that keeps its equations coupled leads to such a decoder. -/
theorem pushSymbol_recovers :
    (∀ truth : UInt32 → Payload, (∀ seq, (truth seq).length < 65536) →
      ∀ decoder : FecDecoder, decoder.Sound truth → ∀ symbol : Symbol, symbol.Genuine truth →
        NativeCoupled decoder symbol → decoder.HasRoom symbol →
        ∀ seq, decoder.LeavesAlone seq symbol →
          .recovered seq (truth seq) true ∈ (decoder.pushSymbol symbol).2) ∧
    ∀ (stream : Nat → Payload) (config : FecConfig) (calls : List EncoderCall)
      (maxSymbols : UInt16) (maxBytes : UInt32) (deliveries : List Delivery),
      (∀ index, (stream index).length ≤ 65520) →
      Runs.Along (Flight.step FecDecoder.pushSymbol)
        (fun _ => InFlight (emissions stream config calls)) [] ⟨.new maxSymbols maxBytes, 0⟩
        deliveries →
      Runs.Along (Flight.step FecDecoder.pushSymbol) (fun _ => Flight.Guarded NativeCoupled) []
        ⟨.new maxSymbols maxBytes, 0⟩ deliveries →
      (Runs.run (Flight.step FecDecoder.pushSymbol) ⟨.new maxSymbols maxBytes, 0⟩
        deliveries).1.decoder.Sound (truthAt stream (Runs.run (Flight.step FecDecoder.pushSymbol)
          ⟨.new maxSymbols maxBytes, 0⟩ deliveries).1.low) := by
  constructor
  · intro truth short decoder sound symbol genuine coupled room seq alone
    cases symbol with
    | source arrived payload =>
      exact FecDecoder.pushSource_recovers short sound genuine coupled room alone
    | repair repairSeq windowBase windowEnd payload =>
      exact FecDecoder.pushRepair_recovers short sound genuine room alone
  · intro stream config calls maxSymbols maxBytes deliveries short inFlight coupled
    refine (run_sound _ NativeCoupled ?_ stream config calls maxSymbols maxBytes deliveries short
      inFlight coupled).1
    intro truth decoder symbol bound sound genuine guarded
    cases symbol with
    | source seq payload => exact FecDecoder.pushSource_sound bound sound genuine guarded
    | repair repairSeq windowBase windowEnd payload =>
      exact FecDecoder.pushRepair_sound bound sound genuine.2 genuine.1

-- The native decoder after it was handed the emissions at the given positions.
def handedOver (positions : List Nat) : Flight :=
  (Runs.run (Flight.step FecDecoder.pushSymbol) ⟨.new 128 16777216, 0⟩ (handOver positions)).1

-- Source 0 is lost, and the repair over the first three sources brings it back.
theorem pushSymbol_recovers_first :
    .recovered 0 [1] true ∈
      ((handedOver [1, 2]).decoder.pushSymbol (.repair 0 0 3 [1, 0, 1])).2 := by
  have sound := pushSymbol_recovers.2 oneByteStream ⟨1, 3, 128, 1000000⟩
    (List.replicate 4 .pushSource) 128 16777216 (handOver [1, 2]) oneByteStream_short
    (by decide +kernel) (by decide +kernel)
  change (handedOver [1, 2]).decoder.Sound (truthAt oneByteStream (handedOver [1, 2]).low) at sound
  have low : (handedOver [1, 2]).low = 0 := by decide +kernel
  rw [low] at sound
  have faithful := emissions_faithful oneByteStream ⟨1, 3, 128, 1000000⟩
    (List.replicate 4 .pushSource) ⟨.repair 0 0 3 [1, 0, 1], 0, 3⟩ (by decide +kernel)
  have room : (handedOver [1, 2]).decoder.HasRoom (.repair 0 0 3 [1, 0, 1]) := by decide +kernel
  have alone : (handedOver [1, 2]).decoder.LeavesAlone 0 (.repair 0 0 3 [1, 0, 1]) := by
    decide +kernel
  have first : truthAt oneByteStream 0 0 = [1] := by decide +kernel
  have recovered := pushSymbol_recovers.1 (truthAt oneByteStream 0)
    (fun seq => Nat.lt_of_le_of_lt (oneByteStream_short _) (by decide)) _ sound _
    (faithful.genuine le_rfl (by decide)) trivial room 0 alone
  rw [first] at recovered
  exact recovered

-- Source 0 is lost and its gap abandoned when the repair over the first four sources comes. Source
-- 3 then leaves it the only unknown source of the equation, but brings nothing back.
theorem abandoned_not_recovered :
    (∀ symbol ∈ [.source 1 [], .source 2 [], .repair 0 0 4 [1, 0, 1], .source 3 []],
      symbol ∈ (emissions oneByteStream ⟨1, 4, 128, 1000000⟩
        (List.replicate 4 .pushSource)).map Emission.symbol) ∧
    let decoder := (Runs.run FecDecoder.pushSymbol (.new 128 16777216)
      [.source 1 [], .source 2 [], .repair 0 0 4 [1, 0, 1]]).1
    decoder.HasRoom (.source 3 []) ∧ decoder.Stores 3 [] ∧ ¬ decoder.Knows 0 ∧
      (∃ repair ∈ decoder.repairs, 0 ∈ repair.seqs ∧
        decoder.KnowsAllBut [0, 3] repair.seqs) ∧
      (decoder.pushSymbol (.source 3 [])).2 = [.recovered 3 [] false] :=
  ⟨by decide +kernel, by decide +kernel⟩

end BetterParsec
