import BetterParsec.Fec.Equations
import BetterParsec.Fec.NativeDecoder

set_option autoImplicit false
set_option linter.all false

/-!
# The acknowledgement frontier

`highest_fully_decoded` only passes seqs that were reported to the receiver, as
recovered or given up. The converse, that it passes everything reported, needs
that nothing at or ahead of the frontier is discarded.
-/

namespace BetterParsec

def DecoderEvent.Covers (seq : UInt32) : DecoderEvent → Prop
  | .recovered other _ _ => other = seq
  | .lossSpan fromSeq toSeqExclusive | .evicted fromSeq toSeqExclusive =>
      seq ∈ windowSeqs fromSeq toSeqExclusive

-- The seqs the symbol speaks about lie in the lower half range.
def Symbol.Lower : Symbol → Prop
  | .source seq _ => seq < 0x80000000
  | .repair _ windowBase windowEnd _ => windowBase ≤ windowEnd ∧ windowEnd ≤ 0x80000000

def Reported (events : List DecoderEvent) (seq : UInt32) : Prop :=
  ∃ event ∈ events, event.Covers seq

theorem Reported.left {events : List DecoderEvent} {seq : UInt32} (reported : Reported events seq)
    (more : List DecoderEvent) : Reported (events ++ more) seq := by
  obtain ⟨event, member, covers⟩ := reported
  exact ⟨event, List.mem_append_left _ member, covers⟩

theorem Reported.right {events : List DecoderEvent} {seq : UInt32} (reported : Reported events seq)
    (before : List DecoderEvent) : Reported (before ++ events) seq := by
  obtain ⟨event, member, covers⟩ := reported
  exact ⟨event, List.mem_append_right _ member, covers⟩

theorem reported_append {first second : List DecoderEvent} {seq : UInt32} :
    Reported (first ++ second) seq ↔ Reported first seq ∨ Reported second seq := by
  constructor
  · rintro ⟨event, member, covers⟩
    rcases List.mem_append.mp member with left | right
    · exact Or.inl ⟨event, left, covers⟩
    · exact Or.inr ⟨event, right, covers⟩
  · rintro (left | right)
    · exact left.left second
    · exact right.right first

namespace FecDecoder

-- Everything up to the frontier and every payload held has been reported.
structure Accounted (seen : List DecoderEvent) (decoder : FecDecoder) : Prop where
  frontier : ∀ highest, decoder.highestContiguous = some highest →
    ∀ seq ≤ highest, Reported seen seq
  known : ∀ seq state, decoder.sources.get? seq = some state → state.isKnown → Reported seen seq

theorem Accounted.within {seen : List DecoderEvent} {before after : FecDecoder}
    (accounted : before.Accounted seen) (within : after.Within before)
    (same : after.highestContiguous = before.highestContiguous) (more : List DecoderEvent) :
    after.Accounted (seen ++ more) :=
  ⟨fun highest found seq bound =>
      (accounted.frontier highest (same ▸ found) seq bound).left more,
    fun seq state found known =>
      (accounted.known seq state (within.sources seq state found) known).left more⟩

theorem tryRecover_accounted {seen : List DecoderEvent} {decoder : FecDecoder}
    (accounted : decoder.Accounted seen) :
    decoder.tryRecover.1.Accounted (seen ++ recoveredEvents decoder.tryRecover.2) := by
  have recovers := decoder.tryRecover_recovers
  refine ⟨fun highest found seq bound => ?_, fun seq state found known => ?_⟩
  · rw [recovers.highestContiguous] at found
    exact (accounted.frontier highest found seq bound).left _
  · rcases recovers.known found with held | ⟨payload, solved⟩
    · exact (accounted.known seq state held known).left _
    · exact Reported.right ⟨.recovered seq payload true, List.mem_map.mpr ⟨_, solved, rfl⟩, rfl⟩ _

/-- The seqs up to the end of a gap lie before the frontier or in the gap. -/
theorem gap_covers {decoder : FecDecoder} {scan seq : UInt32} (bound : seq ≤ scan - 1)
    (distinct : scan ≠ decoder.frontier) :
    seq ∈ windowSeqs decoder.frontier scan ∨
      ∃ highest, decoder.highestContiguous = some highest ∧ seq ≤ highest := by
  rw [mem_windowSeqs]
  unfold frontier at distinct ⊢
  cases current : decoder.highestContiguous with
  | none =>
    left
    rw [current] at distinct
    simp only at distinct ⊢
    grind
  | some highest =>
    rw [current] at distinct
    simp only at distinct ⊢
    by_cases before : seq ≤ highest
    · exact Or.inr ⟨highest, rfl, before⟩
    · left
      grind

theorem advanceContiguous_accounted {seen : List DecoderEvent} {decoder : FecDecoder}
    (accounted : decoder.Accounted seen) :
    decoder.advanceContiguous.1.Accounted (seen ++ decoder.advanceContiguous.2) := by
  refine advanceContiguous_invariant (fun events current => current.Accounted (seen ++ events))
    ?_ ?_ ?_ decoder (by simpa using accounted)
  · intro events current state viaFec held found known
    refine ⟨fun highest reached seq bound => ?_, by simpa [passFrontier] using held.known⟩
    have moved : highest = current.frontier := by
      simpa [passFrontier] using (Option.some.inj reached).symm
    rw [moved] at bound
    by_cases here : seq = current.frontier
    · exact held.known seq state (here ▸ found) known
    · cases before : current.highestContiguous with
      | none =>
        simp only [frontier, before] at bound here
        grind
      | some old =>
        simp only [frontier, before] at bound here
        exact held.frontier old before seq (by grind)
  · intro events current scan held gap
    have distinct : scan ≠ current.frontier := by
      rintro rfl
      obtain ⟨state, found, known⟩ := gap.bounded
      rw [gap.starts] at found
      rw [← Option.some.inj found] at known
      simp [SourceState.isKnown, SourceState.payload] at known
    rw [← List.append_assoc]
    refine ⟨fun highest reached seq bound => ?_, fun seq state found known => ?_⟩
    · have moved : highest = scan - 1 := (Option.some.inj reached).symm
      rcases gap_covers (moved ▸ bound) distinct with inside | ⟨old, before, lower⟩
      · exact Reported.right ⟨.lossSpan current.frontier scan, by simp, inside⟩ _
      · exact (held.frontier old before seq lower).left _
    · exact (held.known seq state ((current.skipGap_within scan).sources seq state found)
        known).left _
  · intro events current held
    exact ⟨by simpa using held.frontier, by simpa using held.known⟩

theorem settle_accounted {seen : List DecoderEvent} {decoder : FecDecoder}
    (accounted : decoder.Accounted seen) :
    decoder.settle.1.Accounted (seen ++ decoder.settle.2) := by
  have advanced := advanceContiguous_accounted (tryRecover_accounted accounted)
  rw [List.append_assoc] at advanced
  exact advanced

theorem pushSymbol_accounted {seen : List DecoderEvent} {decoder : FecDecoder}
    (accounted : decoder.Accounted seen) (symbol : Symbol) :
    (decoder.pushSymbol symbol).1.Accounted (seen ++ (decoder.pushSymbol symbol).2) := by
  cases symbol with
  | source seq payload =>
    change (decoder.pushSource seq payload).1.Accounted (seen ++ (decoder.pushSource seq payload).2)
    obtain ⟨-, result⟩ | ⟨-, result⟩ | ⟨-, result⟩ := decoder.pushSource_cases seq payload
    · rw [result]
      exact accounted.within (.refl decoder) rfl _
    · rw [result]
      exact accounted.within (.refl decoder) rfl _
    · have room := accounted.within (decoder.makeRoom_within (decoder.sourceDeltas seq payload))
        (decoder.makeRoom_frame _).1 (decoder.storeSource seq payload).2
      have stored : (decoder.storeSource seq payload).1.Accounted
          (seen ++ (decoder.storeSource seq payload).2) := by
        refine ⟨by simpa [storeSource] using room.frontier, fun other state found known => ?_⟩
        simp only [storeSource, noteNewest_sources, noteOpenSpanAtFrontier_sources,
          OrdMap.get?_insert] at found
        split_ifs at found with same
        · refine Reported.right ⟨.recovered seq payload false, by simp [storeSource], ?_⟩ _
          exact same.symm
        · exact room.known other state found known
      rw [result, ← List.append_assoc]
      exact settle_accounted stored
  | repair repairSeq windowBase windowEnd payload =>
    change (decoder.pushRepair ⟨repairSeq, windowBase, windowEnd, payload⟩).1.Accounted
      (seen ++ (decoder.pushRepair ⟨repairSeq, windowBase, windowEnd, payload⟩).2)
    obtain result | ⟨room, stored, -, admitted, result⟩ :=
      decoder.pushRepair_cases ⟨repairSeq, windowBase, windowEnd, payload⟩
    · rw [result]
      exact accounted.within (.refl decoder) rfl _
    · rw [result, ← List.append_assoc]
      refine settle_accounted ⟨fun highest found seq bound => ?_, fun seq state found known => ?_⟩
      · rw [admitted.highestContiguous] at found
        exact (accounted.frontier highest found seq bound).left _
      · rw [admitted.sources, get?_registerMissing] at found
        split_ifs at found
        · rw [← Option.some.inj found] at known
          simp [SourceState.isKnown, SourceState.payload] at known
        · refine (accounted.known seq state ?_ known).left _
          exact (decoder.rollForRepair_within _ _).sources seq state
            (admitted.retained.sources seq state found)

/-- Over every run, everything up to the frontier has been reported. -/
theorem run_accounted (maxSymbols : UInt16) (maxBytes : UInt32) (symbols : List Symbol) :
    (Runs.run pushSymbol (.new maxSymbols maxBytes) symbols).1.Accounted
      (Runs.run pushSymbol (.new maxSymbols maxBytes) symbols).2 := by
  have kept := Runs.run_invariant_of_forall pushSymbol (fun seen decoder => decoder.Accounted seen)
    (fun seen decoder symbol accounted => pushSymbol_accounted accounted symbol) []
    (.new maxSymbols maxBytes) symbols ⟨by simp, by simp⟩
  simpa using kept

@[simp] theorem frontier_noteOpenSpanAtFrontier (decoder : FecDecoder) :
    decoder.noteOpenSpanAtFrontier.frontier = decoder.frontier := by
  simp [frontier]

@[simp] theorem frontier_passFrontier (decoder : FecDecoder) (viaFec : Bool) :
    (decoder.passFrontier viaFec).frontier = decoder.frontier + 1 := rfl

@[simp] theorem frontier_skipGap (decoder : FecDecoder) (scan : UInt32) :
    (decoder.skipGap scan).frontier = scan := by
  simp [frontier, skipGap]

-- The frontier rests before a seq whose payload is not known.
def Waiting (decoder : FecDecoder) : Prop :=
  ∀ state, decoder.sources.get? decoder.frontier = some state → state = .missing

/-- With an untracked seq in reach, the loop stops because it has to wait. -/
theorem advanceLoop_waiting (fuel : Nat) (decoder : FecDecoder) (distance : Nat)
    (reach : distance < fuel)
    (absent : decoder.sources.get? (decoder.frontier + UInt32.ofNat distance) = none) :
    (advanceLoop fuel decoder).1.Waiting := by
  induction fuel generalizing decoder distance with
  | zero => omega
  | succ fuel ih =>
    obtain ⟨none, stop⟩ | ⟨state, viaFec, found, -, next⟩ | ⟨scan, gap, next⟩ | ⟨missing, -, stop⟩ :=
      advanceLoop_cases fuel decoder
    · rw [stop]
      simp [Waiting, none]
    · rw [next]
      cases distance with
      | zero => simp [found] at absent
      | succ distance =>
        refine ih (decoder.passFrontier viaFec) distance (by omega) ?_
        rw [frontier_passFrontier, UInt32.add_assoc, UInt32.add_comm 1]
        simpa [passFrontier, UInt32.ofNat_add] using absent
    · rw [next]
      -- The gap is tracked throughout, so the untracked seq lies beyond it.
      have beyond : (scan - decoder.frontier).toNat ≤ distance := by
        by_contra before
        have inside : decoder.frontier + UInt32.ofNat distance ∈
            windowSeqs decoder.frontier scan :=
          List.mem_map.mpr ⟨distance, List.mem_range.mpr (by omega), rfl⟩
        simp [gap.missing _ inside] at absent
      have positive : (scan - decoder.frontier).toNat ≠ 0 := by
        intro zero
        have same : scan = decoder.frontier := by
          have := UInt32.toNat_inj.mp (zero.trans UInt32.toNat_zero.symm)
          grind
        obtain ⟨state, found, known⟩ := gap.bounded
        rw [same, gap.starts] at found
        rw [← Option.some.inj found] at known
        simp [SourceState.isKnown, SourceState.payload] at known
      refine ih (decoder.skipGap scan) (distance - (scan - decoder.frontier).toNat) (by omega) ?_
      have target : scan + UInt32.ofNat (distance - (scan - decoder.frontier).toNat) =
          decoder.frontier + UInt32.ofNat distance := by
        have split : UInt32.ofNat distance = UInt32.ofNat (scan - decoder.frontier).toNat +
            UInt32.ofNat (distance - (scan - decoder.frontier).toNat) := by
          rw [← UInt32.ofNat_add]
          congr
          omega
        rw [split, UInt32.ofNat_toNat]
        grind
      rw [frontier_skipGap, target, skipGap, get?_abandon, absent]
      simp
    · rw [stop]
      simp [Waiting, missing]

theorem size_le_of_small (decoder : FecDecoder)
    (small : ∀ seq, decoder.sources.get? seq ≠ none → seq < 0x80000000) :
    decoder.sources.size ≤ 2 ^ 31 := by
  have distinct : (decoder.sources.keys.map UInt32.toNat).Nodup :=
    decoder.sources.keys_nodup.map (fun _ _ same => UInt32.toNat_inj.mp same)
  have subset : decoder.sources.keys.map UInt32.toNat ⊆ List.range (2 ^ 31) := by
    intro value member
    obtain ⟨seq, held, rfl⟩ := List.mem_map.mp member
    have bound := small seq (fun absent => (decoder.sources.get?_eq_none seq).mp absent held)
    rw [UInt32.lt_iff_toNat_lt] at bound
    exact List.mem_range.mpr bound
  have length := (List.subperm_of_subset distinct subset).length_le
  rwa [List.length_map, OrdMap.length_keys, List.length_range] at length

/-- Among the first `size + 1` seqs from the frontier on, one is not tracked. -/
theorem exists_absent (decoder : FecDecoder) (bound : decoder.sources.size < 2 ^ 32) :
    ∃ distance < decoder.sources.size + 1,
      decoder.sources.get? (decoder.frontier + UInt32.ofNat distance) = none := by
  by_contra tracked
  push Not at tracked
  have distinct : ((List.range (decoder.sources.size + 1)).map
      (fun offset => decoder.frontier + UInt32.ofNat offset)).Nodup := by
    refine List.Nodup.map_on ?_ List.nodup_range
    intro left leftMember right rightMember same
    rw [List.mem_range] at leftMember rightMember
    have offsets : UInt32.ofNat left = UInt32.ofNat right := by simpa using same
    have values := congrArg UInt32.toNat offsets
    simp only [UInt32.toNat_ofNat'] at values
    omega
  have length := decoder.sources.length_le_size _ distinct (fun seq member => by
    obtain ⟨offset, inside, rfl⟩ := List.mem_map.mp member
    exact tracked offset (List.mem_range.mp inside))
  rw [List.length_map, List.length_range] at length
  omega

theorem advanceContiguous_waiting (decoder : FecDecoder)
    (bound : decoder.sources.size < 2 ^ 32) : decoder.advanceContiguous.1.Waiting := by
  obtain ⟨distance, reach, absent⟩ := decoder.exists_absent bound
  exact advanceLoop_waiting _ decoder distance reach absent

def Behind (decoder : FecDecoder) (seq : UInt32) : Prop :=
  match decoder.highestContiguous with
  | none => False
  | some highest => seq ≤ highest

instance (decoder : FecDecoder) (seq : UInt32) : Decidable (decoder.Behind seq) :=
  match current : decoder.highestContiguous with
  | none => .isFalse (by simp [Behind, current])
  | some highest => decidable_of_iff (seq ≤ highest) (by simp [Behind, current])

-- No tracked seq at or ahead of the frontier is missing from `after`.
def KeepsAhead (decoder after : FecDecoder) : Prop :=
  ∀ seq ∈ decoder.sources.keys, decoder.Behind seq ∨ after.sources.contains seq

instance (decoder after : FecDecoder) : Decidable (decoder.KeepsAhead after) :=
  List.decidableBAll (fun seq => decoder.Behind seq ∨ after.sources.contains seq)
    decoder.sources.keys

structure Low (decoder : FecDecoder) : Prop where
  small : ∀ seq, decoder.sources.get? seq ≠ none → seq < 0x80000000
  reached : ∀ highest, decoder.highestContiguous = some highest → highest < 0x80000000

theorem Low.within {before after : FecDecoder} (low : before.Low) (within : after.Within before)
    (same : after.highestContiguous = before.highestContiguous) : after.Low := by
  refine ⟨fun seq tracked => low.small seq ?_,
    fun highest found => low.reached highest (same ▸ found)⟩
  obtain ⟨state, found⟩ := Option.ne_none_iff_exists'.mp tracked
  simp [within.sources seq state found]

theorem tryRecover_low {decoder : FecDecoder} (low : decoder.Low) : decoder.tryRecover.1.Low := by
  have recovers := decoder.tryRecover_recovers
  refine ⟨fun seq tracked => low.small seq ?_, fun highest found =>
    low.reached highest (recovers.highestContiguous ▸ found)⟩
  rwa [ne_eq, recovers.tracked] at tracked

/-- In the lower half range a gap does not wrap. -/
theorem Gap.ordered {decoder : FecDecoder} {scan : UInt32} (gap : decoder.Gap scan)
    (small : ∀ seq, decoder.sources.get? seq ≠ none → seq < 0x80000000) :
    decoder.frontier < scan ∧ scan < 0x80000000 := by
  obtain ⟨state, found, known⟩ := gap.bounded
  have bound := small scan (by simp [found])
  have distinct : scan ≠ decoder.frontier := by
    rintro rfl
    rw [gap.starts] at found
    rw [← Option.some.inj found] at known
    simp [SourceState.isKnown, SourceState.payload] at known
  refine ⟨?_, bound⟩
  by_contra reversed
  -- A wrapping gap would contain the largest seq.
  have inside : 0xFFFFFFFF ∈ windowSeqs decoder.frontier scan := by
    rw [mem_windowSeqs]
    grind
  have large := small 0xFFFFFFFF (by simp [gap.missing _ inside])
  exact absurd large (by decide)

theorem Low.passFrontier {decoder : FecDecoder} (low : decoder.Low) {state : SourceState}
    (found : decoder.sources.get? decoder.frontier = some state) (viaFec : Bool) :
    (decoder.passFrontier viaFec).Low := by
  refine ⟨by simpa [FecDecoder.passFrontier] using low.small, fun highest reached => ?_⟩
  have moved : decoder.frontier = highest := Option.some.inj reached
  rw [← moved]
  exact low.small decoder.frontier (by simp [found])

theorem Low.skipGap {decoder : FecDecoder} (low : decoder.Low) {scan : UInt32}
    (gap : decoder.Gap scan) : (decoder.skipGap scan).Low := by
  obtain ⟨ordered, bound⟩ := gap.ordered low.small
  refine ⟨fun seq tracked => low.small seq ?_, fun highest reached => ?_⟩
  · obtain ⟨state, found⟩ := Option.ne_none_iff_exists'.mp tracked
    simp [(decoder.skipGap_within scan).sources seq state found]
  · have moved : scan - 1 = highest := Option.some.inj reached
    grind

theorem advanceContiguous_low {decoder : FecDecoder} (low : decoder.Low) :
    decoder.advanceContiguous.1.Low := by
  refine advanceContiguous_invariant (fun _ current => current.Low) ?_ ?_ ?_ decoder low
  · intro events current state viaFec held found known
    exact held.passFrontier found viaFec
  · intro events current scan held gap
    exact held.skipGap gap
  · intro events current held
    exact ⟨by simpa using held.small, by simpa using held.reached⟩

theorem settle_low {decoder : FecDecoder} (low : decoder.Low) : decoder.settle.1.Low :=
  advanceContiguous_low (tryRecover_low low)

theorem storeSource_low {decoder : FecDecoder} (low : decoder.Low) {seq : UInt32}
    (half : seq < 0x80000000) (payload : Payload) : (decoder.storeSource seq payload).1.Low := by
  have room := low.within (decoder.makeRoom_within (decoder.sourceDeltas seq payload))
    (decoder.makeRoom_frame _).1
  refine ⟨fun other tracked => ?_, by simpa [storeSource] using room.reached⟩
  simp only [storeSource, noteNewest_sources, noteOpenSpanAtFrontier_sources,
    OrdMap.get?_insert] at tracked
  split_ifs at tracked with same
  · exact same ▸ half
  · exact room.small other tracked

theorem RepairStored.low {decoder room stored : FecDecoder} {repair : ReceivedRepair}
    (admitted : decoder.RepairStored repair room stored) (low : decoder.Low)
    (ordered : repair.windowBase ≤ repair.windowEnd) (half : repair.windowEnd ≤ 0x80000000) :
    stored.Low := by
  have rolled := low.within (decoder.rollForRepair_within repair.windowBase _)
    (decoder.rollForRepair_frame _ (repair.windowEnd - repair.windowBase)).1
  refine ⟨fun seq tracked => ?_, fun reached found => ?_⟩
  · rw [admitted.sources, get?_registerMissing, admitted.roomSources] at tracked
    split_ifs at tracked with fresh
    · have inside : seq - repair.windowBase < repair.windowEnd - repair.windowBase :=
        (mem_windowSeqs _ _ _).mp fresh.2
      grind
    · exact rolled.small seq tracked
  · rw [admitted.highestContiguous] at found
    exact low.reached reached found

theorem pushSymbol_low {decoder : FecDecoder} (low : decoder.Low) {symbol : Symbol}
    (lower : symbol.Lower) : (decoder.pushSymbol symbol).1.Low := by
  cases symbol with
  | source seq payload =>
    change (decoder.pushSource seq payload).1.Low
    obtain ⟨-, result⟩ | ⟨-, result⟩ | ⟨-, result⟩ := decoder.pushSource_cases seq payload
    · rw [result]
      exact low
    · rw [result]
      exact low
    · rw [result]
      exact settle_low (storeSource_low low lower payload)
  | repair repairSeq windowBase windowEnd payload =>
    change (decoder.pushRepair ⟨repairSeq, windowBase, windowEnd, payload⟩).1.Low
    obtain result | ⟨room, stored, -, admitted, result⟩ :=
      decoder.pushRepair_cases ⟨repairSeq, windowBase, windowEnd, payload⟩
    · rw [result]
      exact low
    · rw [result]
      exact settle_low (admitted.low low lower.1 lower.2)

-- Everything reported is behind the frontier or still held.
structure Live (seen : List DecoderEvent) (decoder : FecDecoder) : Prop extends decoder.Low where
  reported : ∀ seq, Reported seen seq →
    decoder.Behind seq ∨ ∃ state, decoder.sources.get? seq = some state ∧ state.isKnown

theorem behind_of_eq {before after : FecDecoder}
    (same : after.highestContiguous = before.highestContiguous) (seq : UInt32) :
    after.Behind seq ↔ before.Behind seq := by
  rw [Behind, Behind, same]

/-- Discarding only what lies behind the frontier, and reporting only what is discarded. -/
theorem Live.discard {seen more : List DecoderEvent} {before after : FecDecoder}
    (live : before.Live seen) (within : after.Within before)
    (same : after.highestContiguous = before.highestContiguous) (keeps : before.KeepsAhead after)
    (discarded : ∀ seq, Reported more seq →
      before.sources.get? seq ≠ none ∧ after.sources.get? seq = none) :
    after.Live (seen ++ more) := by
  have kept (seq : UInt32) (tracked : before.sources.get? seq ≠ none) :
      before.Behind seq ∨ after.sources.get? seq ≠ none := by
    have member : seq ∈ before.sources.keys := by
      by_contra absent
      exact tracked ((before.sources.get?_eq_none seq).mpr absent)
    simpa using keeps seq member
  refine ⟨live.toLow.within within same, fun seq reported => ?_⟩
  rw [behind_of_eq same]
  rcases reported_append.mp reported with old | new
  · rcases live.reported seq old with behind | ⟨state, found, known⟩
    · exact Or.inl behind
    · rcases kept seq (by simp [found]) with behind | held
      · exact Or.inl behind
      · obtain ⟨other, present⟩ := Option.ne_none_iff_exists'.mp held
        have equal : other = state := by
          have old := within.sources seq other present
          rw [found] at old
          exact (Option.some.inj old).symm
        exact Or.inr ⟨state, equal ▸ present, known⟩
  · obtain ⟨tracked, gone⟩ := discarded seq new
    exact Or.inl ((kept seq tracked).resolve_right (fun held => held gone))

theorem reported_evictionEvents {decoder : FecDecoder} {evicted seq : UInt32}
    (reported : Reported (decoder.evictionEvents evicted) seq) :
    seq = evicted ∧ decoder.sources.get? evicted = some .missing := by
  obtain ⟨event, member, covers⟩ := reported
  unfold evictionEvents at member
  split_ifs at member with missing
  · rw [List.mem_singleton.mp member] at covers
    have inside : seq - evicted < evicted + 1 - evicted := (mem_windowSeqs _ _ _).mp covers
    exact ⟨by grind, missing⟩
  · simp at member

theorem makeRoom_discards (decoder : FecDecoder) (added : Added) (seq : UInt32)
    (reported : Reported (decoder.makeRoom added).2 seq) :
    decoder.sources.get? seq ≠ none ∧ (decoder.makeRoom added).1.sources.get? seq = none := by
  refine (makeRoom_invariant added (fun events current => current.Within decoder ∧
    ∀ seq, Reported events seq → decoder.sources.get? seq ≠ none ∧ current.sources.get? seq = none)
    (fun _ current held _ => ⟨current.evictOldestRepair_within.trans held.1, held.2⟩) ?_ decoder
    ⟨.refl decoder, by simp [Reported]⟩).2 seq reported
  rintro events current newest evicted ⟨within, held⟩ - -
  refine ⟨(current.erase_within evicted).trans within, fun other found => ?_⟩
  rcases reported_append.mp found with old | new
  · refine ⟨(held other old).1, ?_⟩
    simp [OrdMap.get?_erase, (held other old).2]
  · obtain ⟨rfl, missing⟩ := reported_evictionEvents new
    exact ⟨by simp [within.sources _ _ missing], by simp [OrdMap.get?_erase]⟩

theorem rollForRepair_discards (decoder : FecDecoder) (windowBase windowLen seq : UInt32)
    (reported : Reported (decoder.rollForRepair windowBase windowLen).2 seq) :
    decoder.sources.get? seq ≠ none ∧
      (decoder.rollForRepair windowBase windowLen).1.sources.get? seq = none := by
  unfold rollForRepair at reported ⊢
  split_ifs at reported ⊢ with empty
  · simp [Reported] at reported
  · obtain ⟨event, member, covers⟩ := reported
    obtain ⟨evicted, outside, inside⟩ := List.mem_flatMap.mp member
    obtain ⟨rfl, missing⟩ := reported_evictionEvents ⟨event, inside, covers⟩
    refine ⟨by simp [missing], ?_⟩
    simp only [List.mem_filter] at outside
    simpa [OrdMap.get?_filter, missing] using outside.2

theorem tryRecover_live {seen : List DecoderEvent} {decoder : FecDecoder}
    (live : decoder.Live seen) :
    decoder.tryRecover.1.Live (seen ++ recoveredEvents decoder.tryRecover.2) := by
  have recovers := decoder.tryRecover_recovers
  refine ⟨tryRecover_low live.toLow, fun seq reported => ?_⟩
  rw [behind_of_eq recovers.highestContiguous]
  by_cases solved : ∃ payload, (seq, payload) ∈ decoder.tryRecover.2
  · obtain ⟨payload, member⟩ := solved
    exact Or.inr ⟨_, (recovers.filled _ member).2, rfl⟩
  · push Not at solved
    rw [recovers.kept seq solved]
    rcases reported_append.mp reported with old | ⟨event, member, covers⟩
    · exact live.reported seq old
    · obtain ⟨pair, inside, rfl⟩ := List.mem_map.mp member
      exact absurd (show (seq, pair.2) ∈ _ from covers ▸ inside) (solved pair.2)

theorem advanceContiguous_live {seen : List DecoderEvent} {decoder : FecDecoder}
    (live : decoder.Live seen) :
    decoder.advanceContiguous.1.Live (seen ++ decoder.advanceContiguous.2) := by
  refine advanceContiguous_invariant (fun events current => current.Live (seen ++ events))
    ?_ ?_ ?_ decoder (by simpa using live)
  · intro events current state viaFec held found known
    refine ⟨held.toLow.passFrontier found viaFec, fun seq reported => ?_⟩
    rcases held.reported seq reported with behind | present
    · left
      unfold Behind at behind
      change seq ≤ current.frontier
      cases before : current.highestContiguous with
      | none => simp [before] at behind
      | some old =>
        have limit := held.reached old before
        simp only [before, frontier] at behind ⊢
        grind
    · exact Or.inr (by simpa [passFrontier] using present)
  · intro events current scan held gap
    obtain ⟨ordered, bound⟩ := gap.ordered held.small
    have inside (seq : UInt32) (member : seq ∈ windowSeqs current.frontier scan) :
        seq ≤ scan - 1 := by
      rw [mem_windowSeqs] at member
      grind
    rw [← List.append_assoc]
    refine ⟨held.toLow.skipGap gap, fun seq reported => ?_⟩
    change seq ≤ scan - 1 ∨ _
    rcases reported_append.mp reported with old | ⟨event, member, covers⟩
    · rcases held.reported seq old with behind | ⟨state, found, known⟩
      · left
        unfold Behind at behind
        cases before : current.highestContiguous with
        | none => simp [before] at behind
        | some old =>
          have limit := held.reached old before
          simp only [before, frontier] at behind ordered
          grind
      · by_cases member : seq ∈ windowSeqs current.frontier scan
        · exact Or.inl (inside seq member)
        · exact Or.inr ⟨state, by rw [skipGap, get?_abandon, if_neg member, found], known⟩
    · rw [List.mem_singleton.mp member] at covers
      exact Or.inl (inside seq covers)
  · intro events current held
    refine ⟨⟨by simpa using held.small, by simpa using held.reached⟩, fun seq reported => ?_⟩
    rw [behind_of_eq (noteOpenSpanAtFrontier_highestContiguous current)]
    simpa using held.reported seq reported

theorem settle_live {seen : List DecoderEvent} {decoder : FecDecoder} (live : decoder.Live seen) :
    decoder.settle.1.Live (seen ++ decoder.settle.2) ∧ decoder.settle.1.Waiting := by
  have recovered := tryRecover_live live
  have advanced := advanceContiguous_live recovered
  rw [List.append_assoc] at advanced
  have bound := decoder.tryRecover.1.size_le_of_small recovered.small
  exact ⟨advanced, decoder.tryRecover.1.advanceContiguous_waiting (by omega)⟩

-- Nothing at or ahead of the frontier is discarded by this symbol, no source ahead of it is too
-- large to be stored, and its seqs lie in the lower half range.
def KeepsFrontier (decoder : FecDecoder) : Symbol → Prop
  | .source seq payload =>
      seq < 0x80000000 ∧
        (decoder.maxBytes < payload.length + 8 → decoder.Behind seq) ∧
        (decoder.Stores seq payload →
          decoder.KeepsAhead (decoder.makeRoom (decoder.sourceDeltas seq payload)).1)
  | .repair repairSeq windowBase windowEnd payload =>
      windowBase ≤ windowEnd ∧ windowEnd ≤ 0x80000000 ∧
        (decoder.storeRepair ⟨repairSeq, windowBase, windowEnd, payload⟩ ≠ none →
          decoder.KeepsAhead (decoder.rollForRepair windowBase (windowEnd - windowBase)).1)

theorem pushSource_live {seen : List DecoderEvent} {decoder : FecDecoder} {seq : UInt32}
    {payload : Payload} (live : decoder.Live seen) (waiting : decoder.Waiting)
    (keeps : decoder.KeepsFrontier (.source seq payload)) :
    (decoder.pushSource seq payload).1.Live (seen ++ (decoder.pushSource seq payload).2) ∧
      (decoder.pushSource seq payload).1.Waiting := by
  obtain ⟨half, oversize, room⟩ := keeps
  obtain ⟨large, result⟩ | ⟨-, result⟩ | ⟨stores, result⟩ := decoder.pushSource_cases seq payload
  · rw [result]
    refine ⟨⟨live.toLow, fun other reported => ?_⟩, waiting⟩
    rcases reported_append.mp reported with old | ⟨event, member, covers⟩
    · exact live.reported other old
    · rw [List.mem_singleton.mp member] at covers
      have same : seq = other := covers
      exact Or.inl (same ▸ oversize large)
  · rw [result]
    exact ⟨by simpa using live, waiting⟩
  · have cleared := live.discard (decoder.makeRoom_within (decoder.sourceDeltas seq payload))
      (decoder.makeRoom_frame _).1 (room stores)
      (decoder.makeRoom_discards (decoder.sourceDeltas seq payload))
    have highest : (decoder.storeSource seq payload).1.highestContiguous =
        (decoder.makeRoom (decoder.sourceDeltas seq payload)).1.highestContiguous := by
      simp [storeSource]
    have sources : (decoder.storeSource seq payload).1.sources =
        (decoder.makeRoom (decoder.sourceDeltas seq payload)).1.sources.insert seq
          (.received payload) := by simp [storeSource]
    have stored : (decoder.storeSource seq payload).1.Live
        (seen ++ (decoder.storeSource seq payload).2) := by
      have events : (decoder.storeSource seq payload).2 =
          (decoder.makeRoom (decoder.sourceDeltas seq payload)).2 ++
            [DecoderEvent.recovered seq payload false] := rfl
      rw [events, ← List.append_assoc]
      refine ⟨storeSource_low live.toLow half payload, fun other reported => ?_⟩
      rw [behind_of_eq highest, sources, OrdMap.get?_insert]
      split_ifs with same
      · exact Or.inr ⟨_, rfl, rfl⟩
      · refine cleared.reported other ((reported_append.mp reported).resolve_right ?_)
        rintro ⟨event, member, covers⟩
        rw [List.mem_singleton.mp member] at covers
        exact same covers.symm
    rw [result, ← List.append_assoc]
    exact settle_live stored

theorem pushRepair_live {seen : List DecoderEvent} {decoder : FecDecoder} {repairSeq : UInt16}
    {windowBase windowEnd : UInt32} {payload : Payload} (live : decoder.Live seen)
    (waiting : decoder.Waiting)
    (keeps : decoder.KeepsFrontier (.repair repairSeq windowBase windowEnd payload)) :
    (decoder.pushRepair ⟨repairSeq, windowBase, windowEnd, payload⟩).1.Live
        (seen ++ (decoder.pushRepair ⟨repairSeq, windowBase, windowEnd, payload⟩).2) ∧
      (decoder.pushRepair ⟨repairSeq, windowBase, windowEnd, payload⟩).1.Waiting := by
  obtain ⟨ordered, half, rolls⟩ := keeps
  obtain result | ⟨room, stored, -, admitted, result⟩ :=
    decoder.pushRepair_cases ⟨repairSeq, windowBase, windowEnd, payload⟩
  · rw [result]
    exact ⟨by simpa using live, waiting⟩
  · have rolled := live.discard (decoder.rollForRepair_within windowBase (windowEnd - windowBase))
      (decoder.rollForRepair_frame _ _).1 (rolls admitted.planned)
      (decoder.rollForRepair_discards windowBase (windowEnd - windowBase))
    have highest : stored.highestContiguous =
        (decoder.rollForRepair windowBase (windowEnd - windowBase)).1.highestContiguous := by
      rw [admitted.highestContiguous, (decoder.rollForRepair_frame _ _).1]
    rw [result, ← List.append_assoc]
    refine settle_live ⟨admitted.low live.toLow ordered half, fun seq reported => ?_⟩
    rw [behind_of_eq highest, admitted.sources, get?_registerMissing, admitted.roomSources]
    rcases rolled.reported seq reported with behind | ⟨state, found, known⟩
    · exact Or.inl behind
    · right
      refine ⟨state, ?_, known⟩
      rw [if_neg (by simp [found]), found]

theorem serialCmp_of_le (highest seq : UInt32) (bound : highest < 0x80000000)
    (before : seq ≤ highest) :
    serialCmp highest seq = some .gt ∨ serialCmp highest seq = some .eq := by
  unfold serialCmp
  grind

/-- The frontier of a live decoder is not known, so it was not reported. -/
theorem Live.reaches {seen : List DecoderEvent} {decoder : FecDecoder} (live : decoder.Live seen)
    (waiting : decoder.Waiting) (seq : UInt32)
    (reported : ∀ earlier ≤ seq, Reported seen earlier) :
    ∃ highest, decoder.highestContiguous = some highest ∧ highest < 0x80000000 ∧
      seq ≤ highest := by
  have unreported : ¬ decoder.frontier ≤ seq := by
    intro before
    rcases live.reported decoder.frontier (reported decoder.frontier before) with
      behind | ⟨state, found, known⟩
    · unfold Behind at behind
      cases current : decoder.highestContiguous with
      | none => simp [current] at behind
      | some highest =>
        have bound := live.reached highest current
        simp only [current, frontier] at behind
        grind
    · rw [waiting state found] at known
      simp [SourceState.isKnown, SourceState.payload] at known
  cases current : decoder.highestContiguous with
  | none =>
    simp only [frontier, current] at unreported
    exact absurd UInt32.zero_le unreported
  | some highest =>
    have bound := live.reached highest current
    simp only [frontier, current] at unreported
    exact ⟨highest, rfl, bound, by grind⟩

/-- In every run that discards nothing at or ahead of the frontier, the frontier passes every seq
below which everything has been reported. -/
theorem run_frontier_reaches (maxSymbols : UInt16) (maxBytes : UInt32) (symbols : List Symbol)
    (keeps : Runs.Along pushSymbol (fun _ => KeepsFrontier) [] (.new maxSymbols maxBytes) symbols)
    (seq : UInt32) (reported : ∀ earlier ≤ seq,
      Reported (Runs.run pushSymbol (.new maxSymbols maxBytes) symbols).2 earlier) :
    ∃ highest, (Runs.run pushSymbol (.new maxSymbols maxBytes) symbols).1.highestFullyDecoded =
        some highest ∧
      (serialCmp highest seq = some .gt ∨ serialCmp highest seq = some .eq) := by
  have kept := Runs.run_invariant pushSymbol (fun _ => KeepsFrontier)
    (fun seen decoder => decoder.Live seen ∧ decoder.Waiting) ?_ []
    (.new maxSymbols maxBytes) symbols ?_ keeps
  · rw [List.nil_append] at kept
    obtain ⟨highest, current, bound, before⟩ := kept.1.reaches kept.2 seq reported
    exact ⟨highest, current, serialCmp_of_le highest seq bound before⟩
  · rintro seen decoder symbol ⟨live, waiting⟩ guarded
    cases symbol with
    | source seq payload => exact pushSource_live live waiting guarded
    | repair repairSeq windowBase windowEnd payload => exact pushRepair_live live waiting guarded
  · refine ⟨⟨⟨?_, ?_⟩, ?_⟩, ?_⟩ <;> simp [Reported, Waiting]

instance (decoder : FecDecoder) : (symbol : Symbol) → Decidable (decoder.KeepsFrontier symbol)
  | .source _ _ => inferInstanceAs (Decidable (_ ∧ _ ∧ _))
  | .repair _ _ _ _ =>
      inferInstanceAs (Decidable (_ ∧ _ ∧ (_ → _)))

/-- Source 0 is lost and given up once source 1 arrives behind it. -/
theorem run_frontier_reaches_gap :
    ∃ highest, (Runs.run pushSymbol (.new 128 1000)
        [.repair 0 0 2 [], .source 1 [7]]).1.highestFullyDecoded = some highest ∧
      (serialCmp highest 1 = some .gt ∨ serialCmp highest 1 = some .eq) := by
  refine run_frontier_reaches 128 1000 [.repair 0 0 2 [], .source 1 [7]] (by decide +kernel) 1 ?_
  intro earlier bound
  have events : (Runs.run pushSymbol (.new 128 1000) [.repair 0 0 2 [], .source 1 [7]]).2 =
      [.recovered 1 [7] false, .lossSpan 0 1] := by decide +kernel
  have either : earlier = 0 ∨ earlier = 1 := by grind
  rw [events]
  rcases either with rfl | rfl
  · exact ⟨.lossSpan 0 1, by simp, by simp only [DecoderEvent.Covers]; decide⟩
  · exact ⟨.recovered 1 [7] false, by simp, rfl⟩

/-- A repair over 2 and 3 rolls the entries of 0 and 1 out of the window; both are reported as
evicted, and the frontier stays where it was. -/
theorem run_frontier_stalls :
    (∀ earlier ≤ (1 : UInt32), Reported (Runs.run pushSymbol (.new 128 1000)
      [.repair 0 0 2 [0, 0], .repair 1 2 4 [0, 0]]).2 earlier) ∧
    (Runs.run pushSymbol (.new 128 1000)
      [.repair 0 0 2 [0, 0], .repair 1 2 4 [0, 0]]).1.highestFullyDecoded = none := by
  refine ⟨fun earlier bound => ?_, by decide +kernel⟩
  have events : (Runs.run pushSymbol (.new 128 1000) [.repair 0 0 2 [0, 0], .repair 1 2 4 [0, 0]]).2 =
      [.evicted 0 1, .evicted 1 2] := by decide +kernel
  have either : earlier = 0 ∨ earlier = 1 := by grind
  rw [events]
  rcases either with rfl | rfl
  · exact ⟨.evicted 0 1, by simp, by simp only [DecoderEvent.Covers]; decide⟩
  · exact ⟨.evicted 1 2, by simp, by simp only [DecoderEvent.Covers]; decide⟩

end FecDecoder

end BetterParsec
