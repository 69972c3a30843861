import BetterParsec.Fec.Encoder
import BetterParsec.Library.Elimination
import BetterParsec.Library.OrdMap

set_option autoImplicit false
set_option linter.all false

/-!
# Decoder state

The state that the native decoder and its browser port both keep, with the
operations the two sources define alike: accounting, the repair horizon test,
elimination over the retained equations and the loss-span bookkeeping. What they
do differently is in `NativeDecoder` and `WebDecoder`.
-/

namespace BetterParsec

inductive DecoderEvent where
  | recovered (seq : UInt32) (payload : Payload) (viaFec : Bool)
  | lossSpan (fromSeq toSeqExclusive : UInt32)
  | evicted (fromSeq toSeqExclusive : UInt32)
  deriving DecidableEq

inductive SourceState where
  | received (payload : Payload)
  | recovered (payload : Payload)
  | missing
  deriving DecidableEq

def SourceState.payload : SourceState → Option Payload
  | .received payload | .recovered payload => some payload
  | .missing => none

def SourceState.isKnown (state : SourceState) : Bool := state.payload.isSome

structure ReceivedRepair where
  repairSeq : UInt16
  windowBase : UInt32
  windowEnd : UInt32
  payload : Payload
  deriving DecidableEq

def ReceivedRepair.key (repair : ReceivedRepair) : UInt16 × UInt32 :=
  (repair.repairSeq, repair.windowBase)

def ReceivedRepair.seqs (repair : ReceivedRepair) : List UInt32 :=
  windowSeqs repair.windowBase repair.windowEnd

structure FecDecoderStats where
  sourceSymbolsReceived : Nat := 0
  repairSymbolsReceived : Nat := 0
  symbolsRecovered : Nat := 0
  lossSpans : Nat := 0
  lossSpansRecovered : Nat := 0
  deriving DecidableEq

structure FecDecoderAccounting where
  sourceSymbols : Nat
  repairSymbols : Nat
  dedupKeys : Nat
  algebraSymbols : Nat
  retainedBytes : Nat

structure FecDecoder where
  maxSymbols : Nat
  maxBytes : Nat
  sources : OrdMap UInt32 SourceState
  repairs : List ReceivedRepair
  seenRepairKeys : Finset (UInt16 × UInt32)
  highestContiguous : Option UInt32
  stats : FecDecoderStats
  openLossSpan : Option UInt32
  openLossSpanHasRecovery : Bool
  newestSeq : Option UInt32
  rollHorizon : Option (UInt32 × UInt32)

inductive RepairHorizonRelation where
  | stale
  | overlapping
  | forward
  deriving DecidableEq

def SourceState.bytes (state : SourceState) : Nat :=
  match state.payload with
  | some payload => payload.length + 8
  | none => 8

-- Gauss-Jordan elimination of the byte matrices over GF(256).
def gaussianElim (coeffs rhs : List (List UInt8)) (nUnknowns payloadLen : Nat) :
    List (Nat × List UInt8) :=
  if coeffs.length = 0 ∨ nUnknowns = 0 ∨ payloadLen = 0 then []
  else
    let rows := List.zipWith (fun row values =>
      ({ coeffs := row.map Gf256.mk, rhs := values.map Gf256.mk } : Elimination.Row Gf256))
      coeffs rhs
    (Elimination.solve rows nUnknowns).map (fun solution =>
      (solution.1, solution.2.map Gf256.byte))

namespace FecDecoder

def new (maxSymbols : UInt16) (maxBytes : UInt32) : FecDecoder :=
  { maxSymbols := min (max maxSymbols.toNat 1) 128
    maxBytes := min (max maxBytes.toNat 1) (16 * 1024 * 1024)
    sources := .empty
    repairs := []
    seenRepairKeys := ∅
    highestContiguous := none
    stats := {}
    openLossSpan := none
    openLossSpanHasRecovery := false
    newestSeq := none
    rollHorizon := none }

section New

variable (maxSymbols : UInt16) (maxBytes : UInt32)

@[simp] theorem new_sources : (new maxSymbols maxBytes).sources = .empty := rfl

@[simp] theorem new_repairs : (new maxSymbols maxBytes).repairs = [] := rfl

@[simp] theorem new_seenRepairKeys : (new maxSymbols maxBytes).seenRepairKeys = ∅ := rfl

@[simp] theorem new_highestContiguous : (new maxSymbols maxBytes).highestContiguous = none := rfl

end New

def highestFullyDecoded (decoder : FecDecoder) : Option UInt32 := decoder.highestContiguous

def accounting (decoder : FecDecoder) : FecDecoderAccounting :=
  let sourceBytes := decoder.sources.weight SourceState.bytes
  let repairBytes := (decoder.repairs.map (fun repair => repair.payload.length + 16)).sum
  { sourceSymbols := decoder.sources.size
    repairSymbols := decoder.repairs.length
    dedupKeys := decoder.seenRepairKeys.card
    algebraSymbols := max decoder.sources.size decoder.repairs.length
    retainedBytes := sourceBytes + repairBytes + decoder.seenRepairKeys.card * 8 }

def noteNewest (decoder : FecDecoder) (seq : UInt32) : FecDecoder :=
  match decoder.newestSeq with
  | none => { decoder with newestSeq := some seq }
  | some current =>
      if seq - current < 0x80000000 then { decoder with newestSeq := some seq } else decoder

def repairHorizonRelation (decoder : FecDecoder) (windowBase windowEnd : UInt32) :
    RepairHorizonRelation :=
  match decoder.rollHorizon with
  | none => .forward
  | some (horizonBase, horizonEnd) =>
      match serialCmp windowEnd horizonEnd with
      | none | some .lt => .stale
      | some .eq => if windowBase = horizonBase then .forward else .stale
      | some .gt =>
          match serialCmp windowBase horizonBase with
          | some .gt | some .eq => .forward
          | some .lt | none => .overlapping

-- Drop the oldest retained repair and rebuild the dedup index.
def evictOldestRepair (decoder : FecDecoder) : FecDecoder :=
  { decoder with
    repairs := decoder.repairs.tail
    seenRepairKeys := (decoder.repairs.tail.map ReceivedRepair.key).toFinset }

def frontier (decoder : FecDecoder) : UInt32 :=
  match decoder.highestContiguous with
  | none => 0
  | some highest => highest + 1

def noteOpenSpanAtFrontier (decoder : FecDecoder) : FecDecoder :=
  if decoder.openLossSpan.isSome then decoder
  else if decoder.sources.get? decoder.frontier = some .missing then
    { decoder with
      stats := { decoder.stats with lossSpans := decoder.stats.lossSpans + 1 }
      openLossSpan := some decoder.frontier
      openLossSpanHasRecovery := false }
  else decoder

-- Register every seq of a window as at least `missing`.
def registerMissing (sources : OrdMap UInt32 SourceState) (seqs : List UInt32) :
    OrdMap UInt32 SourceState :=
  seqs.foldl (fun sources seq =>
    if sources.contains seq then sources else sources.insert seq .missing) sources

def missingSeqs (decoder : FecDecoder) : List UInt32 :=
  (decoder.sources.filter (fun _ state => !state.isKnown)).keys

-- One equation while its known sources are subtracted and its unknowns are collected.
structure EquationRow where
  coeffs : List UInt8
  rhs : List UInt8

-- Byte `index` of a known source as `one_elim_pass` subtracts it from `repair`.
def subtrahend (repair : ReceivedRepair) (payload : Payload) (index : Nat) : UInt8 :=
  let length := UInt16.ofNat payload.length
  if index = 0 then
    if repair.payload.isEmpty then 0 else length.toUInt8
  else if index = 1 then
    if repair.payload.length ≥ 2 then (length >>> 8).toUInt8 else 0
  else payload.getD (index - 2) 0

def EquationRow.visit (sources : OrdMap UInt32 SourceState) (missing : List UInt32)
    (repair : ReceivedRepair) (row : EquationRow) (seq : UInt32) : EquationRow :=
  let coeff := gfCoeff repair.repairSeq seq
  match sources.get? seq with
  | none => row
  | some state =>
      match state.payload with
      | some payload =>
          let subtract := fun index b => b ^^^ gfMul coeff (subtrahend repair payload index)
          { row with rhs := row.rhs.mapIdx subtract }
      | none =>
          match missing.idxOf? seq with
          | some position => { row with coeffs := row.coeffs.set position coeff }
          | none => row

-- No unknown yet, and the repair payload zero-extended to `maxEffLen`.
def EquationRow.start (nUnknowns maxEffLen : Nat) (repair : ReceivedRepair) : EquationRow :=
  { coeffs := List.replicate nUnknowns 0
    rhs := repair.payload ++ List.replicate (maxEffLen - repair.payload.length) 0 }

def equationRow (decoder : FecDecoder) (missing : List UInt32) (maxEffLen : Nat)
    (repair : ReceivedRepair) : EquationRow :=
  repair.seqs.foldl (EquationRow.visit decoder.sources missing repair)
    (.start missing.length maxEffLen repair)

-- The payload inside a solved length-prefixed vector.
def extractPayload (effPayload : List UInt8) : Payload :=
  let payloadLen := (effPayload.getD 0 0).toNat + 256 * (effPayload.getD 1 0).toNat
  (effPayload.take (2 + payloadLen)).drop 2

def maxEffLen (decoder : FecDecoder) : Nat :=
  (decoder.repairs.map (fun repair => repair.payload.length)).foldr max 0

def elimScratch (decoder : FecDecoder) (nUnknowns : Nat) : Nat :=
  decoder.repairs.length * (nUnknowns + decoder.maxEffLen) + 2 * nUnknowns +
    2 * decoder.maxEffLen

def oneElimPass (decoder : FecDecoder) : List (UInt32 × Payload) :=
  let missing := decoder.missingSeqs
  let effLen := decoder.maxEffLen
  let nUnknowns := missing.length
  if decoder.repairs.isEmpty || missing.isEmpty || effLen = 0 ||
      nUnknowns > 128 || decoder.repairs.length > 128 ||
      decoder.accounting.retainedBytes + decoder.elimScratch nUnknowns > decoder.maxBytes then []
  else
    let rows := decoder.repairs.map (decoder.equationRow missing effLen)
    let solutions := gaussianElim (rows.map EquationRow.coeffs) (rows.map EquationRow.rhs)
      nUnknowns effLen
    solutions.filterMap (fun solution =>
      if solution.2.length < 2 then none
      else some (missing.getD solution.1 0, extractPayload solution.2))

def absorb (decoder : FecDecoder) (batch : List (UInt32 × Payload)) : FecDecoder :=
  { decoder with
    stats := { decoder.stats with
      symbolsRecovered := decoder.stats.symbolsRecovered + batch.length }
    sources := batch.foldl (fun sources solved =>
      sources.insert solved.1 (.recovered solved.2)) decoder.sources }

-- Keep eliminating while a pass solves something that fits the byte cap.
def tryRecoverLoop : Nat → FecDecoder → FecDecoder × List (UInt32 × Payload)
  | 0, decoder => (decoder, [])
  | fuel + 1, decoder =>
      let batch := decoder.oneElimPass
      if batch.isEmpty then (decoder, [])
      else
        let recoveredBytes := (batch.map (fun solved => solved.2.length)).sum
        if decoder.accounting.retainedBytes + recoveredBytes > decoder.maxBytes then (decoder, [])
        else
          let (last, later) := tryRecoverLoop fuel (decoder.absorb batch)
          (last, batch ++ later)

-- Each productive pass resolves at least one unknown, so this many passes suffice.
def tryRecover (decoder : FecDecoder) : FecDecoder × List (UInt32 × Payload) :=
  tryRecoverLoop (decoder.missingSeqs.length + 1) decoder

def closeOpenSpanStep (decoder : FecDecoder) (resolvedSeq : UInt32) (viaFec : Bool) : FecDecoder :=
  if decoder.openLossSpan.isNone then decoder
  else
    let hasRecovery := decoder.openLossSpanHasRecovery || viaFec
    let stillMissing := decoder.sources.get? (resolvedSeq + 1) = some .missing
    if stillMissing then { decoder with openLossSpanHasRecovery := hasRecovery }
    else
      { decoder with
        stats := { decoder.stats with
          lossSpansRecovered := decoder.stats.lossSpansRecovered + if hasRecovery then 1 else 0 }
        openLossSpan := none
        openLossSpanHasRecovery := false }

-- The first seq from `seq` on that is not `missing`.
def scanMissing (sources : OrdMap UInt32 SourceState) : Nat → UInt32 → UInt32
  | 0, seq => seq
  | fuel + 1, seq =>
      if sources.get? seq = some .missing then scanMissing sources fuel (seq + 1) else seq

def recoveredEvents (recovered : List (UInt32 × Payload)) : List DecoderEvent :=
  recovered.map (fun solved => .recovered solved.1 solved.2 true)

section Frames

variable (decoder : FecDecoder) (seq : UInt32) (viaFec : Bool)

@[simp] theorem noteNewest_sources : (decoder.noteNewest seq).sources = decoder.sources := by
  unfold noteNewest
  split
  · rfl
  · split_ifs <;> rfl

@[simp] theorem noteNewest_repairs : (decoder.noteNewest seq).repairs = decoder.repairs := by
  unfold noteNewest
  split
  · rfl
  · split_ifs <;> rfl

@[simp] theorem noteNewest_seenRepairKeys :
    (decoder.noteNewest seq).seenRepairKeys = decoder.seenRepairKeys := by
  unfold noteNewest
  split
  · rfl
  · split_ifs <;> rfl

@[simp] theorem noteNewest_highestContiguous :
    (decoder.noteNewest seq).highestContiguous = decoder.highestContiguous := by
  unfold noteNewest
  split
  · rfl
  · split_ifs <;> rfl

@[simp] theorem noteNewest_maxSymbols :
    (decoder.noteNewest seq).maxSymbols = decoder.maxSymbols := by
  unfold noteNewest
  split
  · rfl
  · split_ifs <;> rfl

@[simp] theorem noteNewest_maxBytes : (decoder.noteNewest seq).maxBytes = decoder.maxBytes := by
  unfold noteNewest
  split
  · rfl
  · split_ifs <;> rfl

@[simp] theorem noteNewest_rollHorizon :
    (decoder.noteNewest seq).rollHorizon = decoder.rollHorizon := by
  unfold noteNewest
  split
  · rfl
  · split_ifs <;> rfl

@[simp] theorem noteOpenSpanAtFrontier_sources :
    decoder.noteOpenSpanAtFrontier.sources = decoder.sources := by
  unfold noteOpenSpanAtFrontier
  split_ifs <;> rfl

@[simp] theorem noteOpenSpanAtFrontier_repairs :
    decoder.noteOpenSpanAtFrontier.repairs = decoder.repairs := by
  unfold noteOpenSpanAtFrontier
  split_ifs <;> rfl

@[simp] theorem noteOpenSpanAtFrontier_seenRepairKeys :
    decoder.noteOpenSpanAtFrontier.seenRepairKeys = decoder.seenRepairKeys := by
  unfold noteOpenSpanAtFrontier
  split_ifs <;> rfl

@[simp] theorem noteOpenSpanAtFrontier_highestContiguous :
    decoder.noteOpenSpanAtFrontier.highestContiguous = decoder.highestContiguous := by
  unfold noteOpenSpanAtFrontier
  split_ifs <;> rfl

@[simp] theorem noteOpenSpanAtFrontier_maxSymbols :
    decoder.noteOpenSpanAtFrontier.maxSymbols = decoder.maxSymbols := by
  unfold noteOpenSpanAtFrontier
  split_ifs <;> rfl

@[simp] theorem noteOpenSpanAtFrontier_maxBytes :
    decoder.noteOpenSpanAtFrontier.maxBytes = decoder.maxBytes := by
  unfold noteOpenSpanAtFrontier
  split_ifs <;> rfl

@[simp] theorem noteOpenSpanAtFrontier_rollHorizon :
    decoder.noteOpenSpanAtFrontier.rollHorizon = decoder.rollHorizon := by
  unfold noteOpenSpanAtFrontier
  split_ifs <;> rfl

@[simp] theorem noteOpenSpanAtFrontier_newestSeq :
    decoder.noteOpenSpanAtFrontier.newestSeq = decoder.newestSeq := by
  unfold noteOpenSpanAtFrontier
  split_ifs <;> rfl

@[simp] theorem closeOpenSpanStep_sources :
    (decoder.closeOpenSpanStep seq viaFec).sources = decoder.sources := by
  unfold closeOpenSpanStep
  dsimp only
  split_ifs <;> rfl

@[simp] theorem closeOpenSpanStep_repairs :
    (decoder.closeOpenSpanStep seq viaFec).repairs = decoder.repairs := by
  unfold closeOpenSpanStep
  dsimp only
  split_ifs <;> rfl

@[simp] theorem closeOpenSpanStep_seenRepairKeys :
    (decoder.closeOpenSpanStep seq viaFec).seenRepairKeys = decoder.seenRepairKeys := by
  unfold closeOpenSpanStep
  dsimp only
  split_ifs <;> rfl

@[simp] theorem closeOpenSpanStep_highestContiguous :
    (decoder.closeOpenSpanStep seq viaFec).highestContiguous = decoder.highestContiguous := by
  unfold closeOpenSpanStep
  dsimp only
  split_ifs <;> rfl

@[simp] theorem closeOpenSpanStep_maxSymbols :
    (decoder.closeOpenSpanStep seq viaFec).maxSymbols = decoder.maxSymbols := by
  unfold closeOpenSpanStep
  dsimp only
  split_ifs <;> rfl

@[simp] theorem closeOpenSpanStep_maxBytes :
    (decoder.closeOpenSpanStep seq viaFec).maxBytes = decoder.maxBytes := by
  unfold closeOpenSpanStep
  dsimp only
  split_ifs <;> rfl

@[simp] theorem closeOpenSpanStep_rollHorizon :
    (decoder.closeOpenSpanStep seq viaFec).rollHorizon = decoder.rollHorizon := by
  unfold closeOpenSpanStep
  dsimp only
  split_ifs <;> rfl

@[simp] theorem closeOpenSpanStep_newestSeq :
    (decoder.closeOpenSpanStep seq viaFec).newestSeq = decoder.newestSeq := by
  unfold closeOpenSpanStep
  dsimp only
  split_ifs <;> rfl

end Frames

theorem get?_registerMissing (sources : OrdMap UInt32 SourceState) (seqs : List UInt32)
    (seq : UInt32) :
    (registerMissing sources seqs).get? seq =
      if sources.get? seq = none ∧ seq ∈ seqs then some .missing else sources.get? seq := by
  induction seqs generalizing sources with
  | nil => simp [registerMissing]
  | cons head rest ih =>
    have step : registerMissing sources (head :: rest) = registerMissing
        (if sources.contains head then sources else sources.insert head .missing) rest := rfl
    rw [step, ih]
    by_cases held : sources.contains head = true
    · rw [if_pos held]
      rw [OrdMap.contains_eq_true] at held
      by_cases unknown : sources.get? seq = none
      · have other : seq ≠ head := fun same => held (same ▸ unknown)
        simp only [unknown, List.mem_cons, other, false_or]
      · simp only [unknown, false_and, if_false]
    · rw [if_neg held]
      rw [OrdMap.contains_eq_true, not_not] at held
      by_cases same : seq = head
      · simp only [same, OrdMap.get?_insert, held, List.mem_cons, true_or, if_true, reduceCtorEq,
          false_and, if_false, and_self]
      · simp only [OrdMap.get?_insert, same, if_false, List.mem_cons, false_or]

/-- The seqs a scan passes over are all `missing`. -/
theorem scanMissing_spec (sources : OrdMap UInt32 SourceState) (fuel : Nat) (seq : UInt32) :
    ∃ passed ≤ fuel, scanMissing sources fuel seq = seq + UInt32.ofNat passed ∧
      (∀ offset < passed, sources.get? (seq + UInt32.ofNat offset) = some .missing) ∧
      (passed < fuel → sources.get? (scanMissing sources fuel seq) ≠ some .missing) := by
  induction fuel generalizing seq with
  | zero => exact ⟨0, le_rfl, by simp [scanMissing], by simp, by simp⟩
  | succ fuel ih =>
    rw [scanMissing]
    split_ifs with missing
    · obtain ⟨passed, bound, result, run, stop⟩ := ih (seq + 1)
      have shift (n : Nat) : seq + 1 + UInt32.ofNat n = seq + UInt32.ofNat (n + 1) := by
        rw [UInt32.ofNat_add, UInt32.add_assoc, UInt32.add_comm 1]
        rfl
      refine ⟨passed + 1, by omega, by rw [result, shift], ?_, fun less => stop (by omega)⟩
      intro offset less
      cases offset with
      | zero => simpa using missing
      | succ offset => rw [← shift]; exact run offset (by omega)
    · exact ⟨0, by omega, by simp, by simp, fun _ => missing⟩

theorem noteNewest_newestSeq (decoder : FecDecoder) (seq : UInt32) :
    (decoder.noteNewest seq).newestSeq ≠ none := by
  unfold noteNewest
  split
  · simp
  · split_ifs <;> simp_all

-- `after` holds nothing that `before` does not hold.
structure Within (after before : FecDecoder) : Prop where
  sources : ∀ seq state, after.sources.get? seq = some state →
    before.sources.get? seq = some state
  repairs : ∀ repair ∈ after.repairs, repair ∈ before.repairs

theorem Within.refl (decoder : FecDecoder) : decoder.Within decoder :=
  ⟨fun _ _ found => found, fun _ member => member⟩

theorem Within.trans {first second third : FecDecoder} (later : third.Within second)
    (earlier : second.Within first) : third.Within first :=
  ⟨fun seq state found => earlier.sources seq state (later.sources seq state found),
    fun repair member => earlier.repairs repair (later.repairs repair member)⟩

theorem evictOldestRepair_within (decoder : FecDecoder) :
    decoder.evictOldestRepair.Within decoder :=
  ⟨fun _ _ found => found, fun _ member => List.mem_of_mem_tail member⟩

theorem erase_within (decoder : FecDecoder) (seq : UInt32) :
    FecDecoder.Within { decoder with sources := decoder.sources.erase seq } decoder := by
  refine ⟨fun other state found => ?_, fun _ member => member⟩
  rw [OrdMap.get?_erase] at found
  split_ifs at found
  exact found

end FecDecoder

end BetterParsec
