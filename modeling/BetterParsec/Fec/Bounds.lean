import BetterParsec.Fec.Equations
import BetterParsec.Fec.NativeDecoder

set_option autoImplicit false
set_option linter.all false

/-!
# Bounded decoder state

What `accounting` reports stays within the caps of the decoder, as long as the
entry an arriving source fills is not evicted while room is made for it.
-/

namespace BetterParsec

namespace FecDecoder

structure WithinCaps (decoder : FecDecoder) : Prop where
  sources : decoder.accounting.sourceSymbols ≤ decoder.maxSymbols
  repairs : decoder.accounting.repairSymbols ≤ decoder.maxSymbols
  keys : decoder.accounting.dedupKeys ≤ decoder.accounting.repairSymbols
  bytes : decoder.accounting.retainedBytes ≤ decoder.maxBytes

-- What keeps `make_room` able to enforce the caps.
structure Governed (decoder : FecDecoder) : Prop where
  positive : 1 ≤ decoder.maxSymbols
  repairs : decoder.repairs.length ≤ decoder.maxSymbols
  keys : decoder.seenRepairKeys = (decoder.repairs.map ReceivedRepair.key).toFinset
  newest : decoder.sources.size ≠ 0 → decoder.newestSeq ≠ none

structure Bounded (decoder : FecDecoder) : Prop extends decoder.Governed where
  symbols : decoder.sources.size ≤ decoder.maxSymbols
  bytes : decoder.accounting.retainedBytes ≤ decoder.maxBytes

theorem Bounded.withinCaps {decoder : FecDecoder} (bounded : decoder.Bounded) :
    decoder.WithinCaps := by
  refine ⟨bounded.symbols, bounded.repairs, ?_, bounded.bytes⟩
  simp only [accounting, bounded.keys]
  exact (List.toFinset_card_le _).trans (by simp)

theorem bounded_new (maxSymbols : UInt16) (maxBytes : UInt32) :
    (FecDecoder.new maxSymbols maxBytes).Bounded := by
  refine ⟨⟨?_, ?_, rfl, ?_⟩, ?_, ?_⟩
  · exact le_min (le_max_right _ _) (by decide)
  all_goals simp [accounting]

/-- Accounting of the bytes of the dedup index follows the repairs. -/
theorem retainedBytes_eq (decoder : FecDecoder) :
    decoder.accounting.retainedBytes = decoder.sources.weight SourceState.bytes +
      (decoder.repairs.map (fun repair => repair.payload.length + 16)).sum +
        decoder.seenRepairKeys.card * 8 := rfl

theorem evictionCandidate_isSome (decoder : FecDecoder) (newest : UInt32)
    (nonempty : decoder.sources.size ≠ 0) : decoder.evictionCandidate newest ≠ none := by
  have keys : decoder.sources.keys ≠ [] := fun empty => nonempty (by
    rw [← OrdMap.length_keys, empty]
    rfl)
  unfold evictionCandidate
  dsimp only
  split
  · simp
  · exact maxByKey_isSome _ _ keys

theorem Governed.evictOldestRepair {decoder : FecDecoder} (governed : decoder.Governed) :
    decoder.evictOldestRepair.Governed := by
  refine ⟨governed.positive, ?_, rfl, governed.newest⟩
  have := governed.repairs
  simp only [FecDecoder.evictOldestRepair, List.length_tail]
  omega

theorem Governed.erase {decoder : FecDecoder} (governed : decoder.Governed) (seq : UInt32) :
    Governed { decoder with sources := decoder.sources.erase seq } := by
  refine ⟨governed.positive, governed.repairs, governed.keys, fun nonempty => ?_⟩
  refine governed.newest (fun empty => nonempty ?_)
  rw [OrdMap.size_eq_zero] at empty ⊢
  intro other
  simp [OrdMap.get?_erase, empty]

/-- An empty decoder has room for one source that fits the byte cap by itself. -/
theorem Governed.vacant {decoder : FecDecoder} (governed : decoder.Governed) (added : Added)
    (noRepair : added.repairs = 0 ∧ added.keys = 0) (one : added.sources ≤ 1)
    (small : added.bytes ≤ decoder.maxBytes) (noRepairs : decoder.repairs = [])
    (noSources : decoder.sources.size = 0) :
    decoder.overSymbols added = false ∧ decoder.overBytes added = false := by
  have weight : decoder.sources.weight SourceState.bytes = 0 := by
    simp [OrdMap.weight, List.eq_nil_of_length_eq_zero noSources]
  have positive := governed.positive
  simp [overSymbols, overBytes, accounting, noRepairs, noSources, governed.keys, weight, noRepair]
  omega

/-- The loop only stops once the deltas fit: until then there is something left to evict. -/
theorem makeRoomLoop_fits (added : Added) (noRepair : added.repairs = 0 ∧ added.keys = 0)
    (one : added.sources ≤ 1) (fuel : Nat) (decoder : FecDecoder) (governed : decoder.Governed)
    (small : added.bytes ≤ decoder.maxBytes)
    (enough : decoder.repairs.length + decoder.sources.size ≤ fuel) :
    (makeRoomLoop added fuel decoder).1.Governed ∧
      (makeRoomLoop added fuel decoder).1.overSymbols added = false ∧
      (makeRoomLoop added fuel decoder).1.overBytes added = false := by
  induction fuel generalizing decoder with
  | zero =>
    exact ⟨governed, governed.vacant added noRepair one small
      (List.eq_nil_of_length_eq_zero (by omega)) (by omega)⟩
  | succ fuel ih =>
    rw [makeRoomLoop]
    split_ifs with fits crowded
    · exact ⟨governed, by simpa using fits⟩
    · have nonempty : decoder.repairs ≠ [] := by simp_all
      refine ih decoder.evictOldestRepair governed.evictOldestRepair small ?_
      have := List.length_pos_iff.mpr nonempty
      simp only [FecDecoder.evictOldestRepair, List.length_tail]
      omega
    · -- Over the cap with nothing else to drop, so some source is tracked.
      have nonempty : decoder.sources.size ≠ 0 := by
        intro empty
        have positive := governed.positive
        have repairs := governed.repairs
        by_cases noRepairs : decoder.repairs = []
        · simp [governed.vacant added noRepair one small noRepairs empty] at fits
        · have isEmpty : decoder.repairs.isEmpty = false := by simpa using noRepairs
          simp only [isEmpty, Bool.not_false, Bool.true_and, Bool.or_eq_true, not_or,
            Bool.not_eq_true] at crowded
          simp [crowded.2, overSymbols, accounting, empty, noRepair] at fits
          omega
      split
      · next absent => exact absurd absent (governed.newest nonempty)
      · next newest current =>
        split
        · next absent => exact absurd absent (decoder.evictionCandidate_isSome newest nonempty)
        · next seq candidate =>
          have smaller := decoder.sources.size_erase seq
            (decoder.evictionCandidate_tracked newest seq candidate)
          exact ih _ (governed.erase seq) small (by simp only; omega)

theorem makeRoom_fits {decoder : FecDecoder} (governed : decoder.Governed) (added : Added)
    (noRepair : added.repairs = 0 ∧ added.keys = 0) (one : added.sources ≤ 1)
    (small : added.bytes ≤ decoder.maxBytes) :
    (decoder.makeRoom added).1.Governed ∧
      (decoder.makeRoom added).1.sources.size + added.sources ≤ decoder.maxSymbols ∧
      (decoder.makeRoom added).1.accounting.retainedBytes + added.bytes ≤ decoder.maxBytes := by
  obtain ⟨-, -, symbols, bytes⟩ := decoder.makeRoom_frame added
  obtain ⟨kept, fitsSymbols, fitsBytes⟩ :=
    makeRoomLoop_fits added noRepair one _ decoder governed small le_rfl
  refine ⟨kept, ?_, ?_⟩
  · change (decoder.makeRoom added).1.overSymbols added = false at fitsSymbols
    simp [overSymbols, accounting, symbols] at fitsSymbols
    exact fitsSymbols.1
  · change (decoder.makeRoom added).1.overBytes added = false at fitsBytes
    simpa [overBytes, bytes, noRepair] using fitsBytes

/-- Holding less keeps the caps. -/
theorem Bounded.shrink {before after : FecDecoder} (bounded : before.Bounded)
    (within : after.Within before)
    (frame : after.repairs = before.repairs ∧ after.seenRepairKeys = before.seenRepairKeys ∧
      after.newestSeq = before.newestSeq ∧ after.maxSymbols = before.maxSymbols ∧
      after.maxBytes = before.maxBytes) : after.Bounded := by
  obtain ⟨repairs, keys, newest, symbols, bytes⟩ := frame
  have size := OrdMap.size_le_of_get? after.sources before.sources within.sources
  have weight := OrdMap.weight_le_of_get? after.sources before.sources SourceState.bytes
    within.sources
  have total := bounded.bytes
  rw [retainedBytes_eq] at total
  refine ⟨⟨by rw [symbols]; exact bounded.positive, by rw [repairs, symbols]; exact bounded.repairs,
    by rw [keys, repairs]; exact bounded.keys, fun nonempty => ?_⟩, ?_, ?_⟩
  · rw [newest]
    exact bounded.newest (by omega)
  · rw [symbols]
    exact size.trans bounded.symbols
  · rw [retainedBytes_eq, repairs, keys, bytes]
    omega

theorem advanceContiguous_bounded {decoder : FecDecoder} (bounded : decoder.Bounded) :
    decoder.advanceContiguous.1.Bounded :=
  bounded.shrink decoder.advanceContiguous_within decoder.advanceContiguous_frame

theorem weight_insertBatch (batch : List (UInt32 × Payload)) (sources : OrdMap UInt32 SourceState)
    (distinct : (batch.map Prod.fst).Nodup)
    (missing : ∀ solved ∈ batch, sources.get? solved.1 = some .missing) :
    (batch.foldl (fun sources solved => sources.insert solved.1 (.recovered solved.2))
        sources).weight SourceState.bytes =
      sources.weight SourceState.bytes + (batch.map (fun solved => solved.2.length)).sum ∧
    (batch.foldl (fun sources solved => sources.insert solved.1 (.recovered solved.2))
        sources).size = sources.size := by
  induction batch generalizing sources with
  | nil => simp
  | cons head rest ih =>
    rw [List.map_cons, List.nodup_cons] at distinct
    have here := missing head (by simp)
    have later (solved : UInt32 × Payload) (member : solved ∈ rest) :
        (sources.insert head.1 (.recovered head.2)).get? solved.1 = some .missing := by
      rw [OrdMap.get?_insert, if_neg, missing solved (by simp [member])]
      rintro same
      exact distinct.1 (same ▸ List.mem_map.mpr ⟨solved, member, rfl⟩)
    obtain ⟨weight, size⟩ := ih (sources.insert head.1 (.recovered head.2)) distinct.2 later
    have grown := OrdMap.weight_insert_of_some sources SourceState.bytes head.1 .missing
      (.recovered head.2) here
    have count := OrdMap.weight_insert_of_some sources (fun _ => 1) head.1 .missing
      (.recovered head.2) here
    rw [← OrdMap.size_eq_weight, ← OrdMap.size_eq_weight] at count
    simp only [SourceState.bytes, SourceState.payload] at grown
    rw [List.foldl_cons, weight, size, List.map_cons, List.sum_cons]
    omega

/-- A pass is only absorbed when the recovered bytes fit beside what is retained. -/
theorem tryRecover_bounded {decoder : FecDecoder} (bounded : decoder.Bounded) :
    decoder.tryRecover.1.Bounded := by
  refine tryRecover_invariant (fun _ current => current.Bounded) ?_ decoder bounded
  intro recovered current held fits
  obtain ⟨weight, size⟩ := weight_insertBatch current.oneElimPass current.sources
    current.oneElimPass_nodup (fun solved member => oneElimPass_missing member)
  refine ⟨⟨held.positive, held.repairs, held.keys, fun nonempty => held.newest ?_⟩, ?_, ?_⟩
  · simpa [absorb, size] using nonempty
  · simpa [absorb, size] using held.symbols
  · rw [retainedBytes_eq] at fits ⊢
    simp only [absorb, weight]
    omega

theorem settle_bounded {decoder : FecDecoder} (bounded : decoder.Bounded) :
    decoder.settle.1.Bounded :=
  advanceContiguous_bounded (tryRecover_bounded bounded)

-- The entry an arriving source is to fill survives the making of room, or there is room for it as
-- a new entry.
def KeepsEntry (decoder : FecDecoder) (seq : UInt32) (payload : Payload) : Prop :=
  (decoder.makeRoom (decoder.sourceDeltas seq payload)).1.sources.get? seq =
      decoder.sources.get? seq ∨
    (decoder.makeRoom (decoder.sourceDeltas seq payload)).1.accounting.retainedBytes +
      payload.length + 8 ≤ decoder.maxBytes

theorem insert_of_none (sources : OrdMap UInt32 SourceState) (seq : UInt32) (state : SourceState)
    (absent : sources.get? seq = none) :
    (sources.insert seq state).size = sources.size + 1 ∧
      (sources.insert seq state).weight SourceState.bytes =
        sources.weight SourceState.bytes + state.bytes := by
  refine ⟨?_, OrdMap.weight_insert_of_none sources _ seq state absent⟩
  rw [OrdMap.size_eq_weight, OrdMap.size_eq_weight]
  exact OrdMap.weight_insert_of_none sources _ seq state absent

theorem insert_of_missing (sources : OrdMap UInt32 SourceState) (seq : UInt32) (payload : Payload)
    (missing : sources.get? seq = some .missing) :
    (sources.insert seq (.received payload)).size = sources.size ∧
      (sources.insert seq (.received payload)).weight SourceState.bytes =
        sources.weight SourceState.bytes + payload.length := by
  have count := OrdMap.weight_insert_of_some sources (fun _ => 1) seq .missing (.received payload)
    missing
  have grown := OrdMap.weight_insert_of_some sources SourceState.bytes seq .missing
    (.received payload) missing
  rw [← OrdMap.size_eq_weight, ← OrdMap.size_eq_weight] at count
  simp only [SourceState.bytes, SourceState.payload] at grown
  omega

/-- The source fits beside what is left once room has been made for it. -/
theorem insert_fits {decoder : FecDecoder} {seq : UInt32} {payload : Payload}
    (bounded : decoder.Bounded) (stores : decoder.Stores seq payload)
    (keeps : decoder.KeepsEntry seq payload) :
    let room := (decoder.makeRoom (decoder.sourceDeltas seq payload)).1
    room.Governed ∧
      (room.sources.insert seq (.received payload)).size ≤ decoder.maxSymbols ∧
      (room.sources.insert seq (.received payload)).weight SourceState.bytes +
          (room.repairs.map (fun repair => repair.payload.length + 16)).sum +
          room.seenRepairKeys.card * 8 ≤ decoder.maxBytes := by
  intro room
  have within : room.Within decoder := decoder.makeRoom_within _
  have large := stores.1
  have symbols := bounded.symbols
  rcases stores.2 with absent | missing
  · -- A new entry: its 8 bytes are part of the deltas.
    have deltas : decoder.sourceDeltas seq payload = ⟨1, 0, 0, payload.length + 8⟩ := by
      simp [sourceDeltas, absent]
    have fits := makeRoom_fits bounded.toGoverned (decoder.sourceDeltas seq payload)
      (by simp [deltas]) (by simp [deltas]) (by simpa [deltas] using large)
    obtain ⟨governed, size, total⟩ := fits
    change room.sources.size + _ ≤ _ at size
    change room.accounting.retainedBytes + _ ≤ _ at total
    have gone : room.sources.get? seq = none := by
      by_contra held
      obtain ⟨state, found⟩ := Option.ne_none_iff_exists'.mp held
      simp [within.sources seq state found] at absent
    obtain ⟨sizeGrown, grown⟩ := insert_of_none room.sources seq (.received payload) gone
    rw [retainedBytes_eq] at total
    simp only [deltas] at size total
    simp only [SourceState.bytes, SourceState.payload] at grown
    exact ⟨governed, by omega, by omega⟩
  · have deltas : decoder.sourceDeltas seq payload = ⟨0, 0, 0, payload.length⟩ := by
      simp [sourceDeltas, missing]
    have fits := makeRoom_fits bounded.toGoverned (decoder.sourceDeltas seq payload)
      (by simp [deltas]) (by simp [deltas]) (by simp only [deltas]; omega)
    obtain ⟨governed, size, total⟩ := fits
    change room.sources.size + _ ≤ _ at size
    change room.accounting.retainedBytes + _ ≤ _ at total
    rw [retainedBytes_eq] at total
    simp only [deltas] at size total
    cases held : room.sources.get? seq with
    | some state =>
      have same : state = .missing := by
        simpa [missing] using (within.sources seq state held).symm
      obtain ⟨sizeGrown, grown⟩ := insert_of_missing room.sources seq payload (same ▸ held)
      exact ⟨governed, by omega, by omega⟩
    | none =>
      -- The entry itself was evicted: one source fewer, and its 8 bytes are needed again.
      have slack : room.accounting.retainedBytes + payload.length + 8 ≤ decoder.maxBytes := by
        refine keeps.resolve_left (fun same => ?_)
        change room.sources.get? seq = _ at same
        simp [held, missing] at same
      rw [retainedBytes_eq] at slack
      obtain ⟨sizeGrown, grown⟩ := insert_of_none room.sources seq (.received payload) held
      obtain ⟨refilled, -⟩ := insert_of_none room.sources seq .missing held
      have fewer : (room.sources.insert seq .missing).size ≤ decoder.sources.size := by
        refine OrdMap.size_le_of_get? _ _ (fun other state found => ?_)
        rw [OrdMap.get?_insert] at found
        split_ifs at found with same
        · rw [same, missing, found]
        · exact within.sources other state found
      simp only [SourceState.bytes, SourceState.payload] at grown
      exact ⟨governed, by omega, by omega⟩

theorem storeSource_bounded {decoder : FecDecoder} {seq : UInt32} {payload : Payload}
    (bounded : decoder.Bounded) (stores : decoder.Stores seq payload)
    (keeps : decoder.KeepsEntry seq payload) : (decoder.storeSource seq payload).1.Bounded := by
  obtain ⟨governed, size, total⟩ := insert_fits bounded stores keeps
  obtain ⟨-, -, symbols, bytes⟩ := decoder.makeRoom_frame (decoder.sourceDeltas seq payload)
  refine ⟨⟨?_, ?_, ?_, fun _ => ?_⟩, ?_, ?_⟩
  · simpa [storeSource] using governed.positive
  · simpa [storeSource] using governed.repairs
  · simpa [storeSource] using governed.keys
  · exact noteNewest_newestSeq _ seq
  · simpa [storeSource, symbols] using size
  · rw [retainedBytes_eq]
    simpa [storeSource, bytes] using total

theorem registerMissing_grows (sources : OrdMap UInt32 SourceState) (seqs : List UInt32)
    (distinct : seqs.Nodup) :
    (registerMissing sources seqs).size =
        sources.size + (seqs.filter (fun seq => !sources.contains seq)).length ∧
      (registerMissing sources seqs).weight SourceState.bytes =
        sources.weight SourceState.bytes +
          (seqs.filter (fun seq => !sources.contains seq)).length * 8 := by
  induction seqs generalizing sources with
  | nil => simp [registerMissing]
  | cons head rest ih =>
    rw [List.nodup_cons] at distinct
    have step : registerMissing sources (head :: rest) = registerMissing
        (if sources.contains head then sources else sources.insert head .missing) rest := rfl
    by_cases held : sources.contains head = true
    · rw [step, if_pos held, List.filter_cons_of_neg (by simp [held])]
      exact ih sources distinct.2
    · have absent : sources.get? head = none := by simpa using held
      obtain ⟨size, weight⟩ := insert_of_none sources head .missing absent
      have others : rest.filter (fun seq => !(sources.insert head .missing).contains seq) =
          rest.filter (fun seq => !sources.contains seq) := by
        refine List.filter_congr (fun seq member => ?_)
        have other : seq ≠ head := fun same => distinct.1 (same ▸ member)
        simp [OrdMap.contains, OrdMap.get?_insert, other]
      obtain ⟨laterSize, laterWeight⟩ := ih (sources.insert head .missing) distinct.2
      rw [step, if_neg held, List.filter_cons_of_pos (by simpa using held), laterSize, laterWeight,
        others, List.length_cons, size, weight]
      simp only [SourceState.bytes, SourceState.payload]
      omega

theorem pushSource_bounded {decoder : FecDecoder} {seq : UInt32} {payload : Payload}
    (bounded : decoder.Bounded)
    (keeps : decoder.Stores seq payload → decoder.KeepsEntry seq payload) :
    (decoder.pushSource seq payload).1.Bounded := by
  obtain ⟨-, result⟩ | ⟨-, result⟩ | ⟨stores, result⟩ := decoder.pushSource_cases seq payload
  · rwa [result]
  · rwa [result]
  · rw [result]
    exact settle_bounded (storeSource_bounded bounded stores (keeps stores))

theorem rollForRepair_governed {decoder : FecDecoder} (governed : decoder.Governed)
    (windowBase windowLen : UInt32) :
    (decoder.rollForRepair windowBase windowLen).1.Governed := by
  have within := decoder.rollForRepair_within windowBase windowLen
  obtain ⟨-, newest, symbols, -⟩ := decoder.rollForRepair_frame windowBase windowLen
  have size := OrdMap.size_le_of_get? _ _ within.sources
  refine ⟨by rw [symbols]; exact governed.positive, ?_, ?_, fun nonempty => ?_⟩
  · rw [symbols]
    refine le_trans ?_ governed.repairs
    unfold rollForRepair
    split_ifs
    · exact le_rfl
    · exact List.length_filter_le _ _
  · unfold rollForRepair
    split_ifs
    · exact governed.keys
    · rfl
  · rw [newest]
    exact governed.newest (by omega)

/-- The admission plan of a repair accounts for everything it adds. -/
theorem pushRepair_bounded {decoder : FecDecoder} (repair : ReceivedRepair)
    (bounded : decoder.Bounded) : (decoder.pushRepair repair).1.Bounded := by
  obtain result | ⟨room, stored, -, admitted, result⟩ := decoder.pushRepair_cases repair
  · rwa [result]
  · rw [result]
    refine settle_bounded ?_
    have keys := admitted.roomKeys (rollForRepair_governed bounded.toGoverned _ _).keys
    obtain ⟨size, weight⟩ := registerMissing_grows room.sources repair.seqs repair.seqs_nodup
    have sourcesFit := admitted.sourcesFit
    have repairsFit := admitted.repairsFit
    have bytesFit := admitted.bytesFit
    rw [retainedBytes_eq, repairBytes] at bytesFit
    simp only [absentCount] at sourcesFit bytesFit
    have indexed : stored.seenRepairKeys.card ≤ room.seenRepairKeys.card + 1 := by
      rw [admitted.seenRepairKeys]
      exact Finset.card_insert_le _ _
    refine ⟨⟨?_, ?_, ?_, fun nonempty => ?_⟩, ?_, ?_⟩
    · rw [admitted.maxSymbols.1, admitted.maxSymbols.2]
      exact bounded.positive
    · rw [admitted.repairs, admitted.maxSymbols.1, List.length_append, List.length_singleton]
      omega
    · rw [admitted.seenRepairKeys, admitted.repairs, keys]
      ext key
      simp [eq_comm]
    · rcases admitted.newestSeq with ⟨same, empty⟩ | noted
      · rw [same]
        refine bounded.newest (fun none => nonempty ?_)
        have rolled := OrdMap.size_le_of_get? _ _ (decoder.rollForRepair_within repair.windowBase
          (repair.windowEnd - repair.windowBase)).sources
        have seqs : repair.seqs = [] := by simp [ReceivedRepair.seqs, windowSeqs, empty]
        rw [admitted.sources, seqs]
        change room.sources.size = 0
        rw [admitted.roomSources]
        omega
      · exact noted
    · rw [admitted.sources, admitted.maxSymbols.1, size]
      omega
    · rw [retainedBytes_eq, admitted.sources, admitted.maxBytes.1, weight, admitted.repairs,
        List.map_append, List.sum_append]
      simp only [List.map_cons, List.map_nil, List.sum_cons, List.sum_nil]
      omega

-- Every stored source finds its entry, or room for a new one, once room has been made.
def KeepsArrivals (decoder : FecDecoder) : Symbol → Prop
  | .source seq payload => decoder.Stores seq payload → decoder.KeepsEntry seq payload
  | .repair _ _ _ _ => True

instance (decoder : FecDecoder) : (symbol : Symbol) → Decidable (decoder.KeepsArrivals symbol)
  | .source _ _ => inferInstanceAs (Decidable (_ → _ ∨ _))
  | .repair _ _ _ _ => .isTrue trivial

/-- In every run in which arriving sources keep their entries, the caps hold throughout. -/
theorem run_within_caps (maxSymbols : UInt16) (maxBytes : UInt32) (symbols : List Symbol)
    (keeps : Runs.Along pushSymbol (fun _ => KeepsArrivals) [] (.new maxSymbols maxBytes) symbols) :
    (Runs.run pushSymbol (.new maxSymbols maxBytes) symbols).1.WithinCaps := by
  have bounded := Runs.run_invariant pushSymbol (fun _ => KeepsArrivals)
    (fun _ decoder => decoder.Bounded) ?_ [] (.new maxSymbols maxBytes) symbols
    (bounded_new maxSymbols maxBytes) keeps
  · exact bounded.withinCaps
  · intro _ decoder symbol held guarded
    cases symbol with
    | source seq payload => exact pushSource_bounded held guarded
    | repair repairSeq windowBase windowEnd payload => exact pushRepair_bounded _ held

/-- Two sources under a cap of 20 bytes: the second evicts the first. -/
theorem run_within_caps_evicting :
    (Runs.run pushSymbol (.new 128 20) [.source 0 [1, 2], .source 1 [3, 4, 5]]).1.sources.get? 0 =
      none ∧
    (Runs.run pushSymbol (.new 128 20) [.source 0 [1, 2], .source 1 [3, 4, 5]]).1.WithinCaps :=
  ⟨by decide +kernel,
    run_within_caps 128 20 [.source 0 [1, 2], .source 1 [3, 4, 5]] (by decide +kernel)⟩

/-- Under a cap of 50 bytes the entry registered for source 0 is evicted to make room for
source 0 itself, which is then stored 6 bytes above the cap. -/
theorem run_exceeds_caps :
    ¬ (Runs.run pushSymbol (.new 128 50)
      [.repair 0 0 1 [], .source 5 (List.replicate 10 0),
        .source 0 (List.replicate 30 0)]).1.WithinCaps := by
  intro caps
  exact absurd caps.bytes (by decide +kernel)

end FecDecoder

end BetterParsec
