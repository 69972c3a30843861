import BetterParsec.Fec.Decoder

set_option autoImplicit false
set_option linter.all false

/-!
# Native decoder

The operations of the bounded sliding-window decoder of `fec.rs` on the shared
decoder state. Loops carry fuel that bounds their number of iterations.
-/

namespace BetterParsec

structure Added where
  sources : Nat
  repairs : Nat
  keys : Nat
  bytes : Nat

namespace FecDecoder

-- The last entry with the largest key, as `Iterator::max_by_key`.
def maxByKey (age : UInt32 → UInt32) (seqs : List UInt32) : Option UInt32 :=
  seqs.foldl (fun best seq =>
    match best with
    | none => some seq
    | some held => if age held ≤ age seq then some seq else some held) none

-- The source `make_room` gives up next: the oldest behind the frontier, else the oldest.
def evictionCandidate (decoder : FecDecoder) (newest : UInt32) : Option UInt32 :=
  let frontier := decoder.highestContiguous.getD newest
  let behind := decoder.sources.keys.filter (fun seq => frontier - seq < 0x80000000)
  match maxByKey (fun seq => frontier - seq) behind with
  | some seq => some seq
  | none => maxByKey (fun seq => newest - seq) decoder.sources.keys

def overSymbols (decoder : FecDecoder) (added : Added) : Bool :=
  decoder.accounting.sourceSymbols + added.sources > decoder.maxSymbols ||
    decoder.accounting.repairSymbols + added.repairs > decoder.maxSymbols

def overBytes (decoder : FecDecoder) (added : Added) : Bool :=
  decoder.accounting.retainedBytes + added.bytes + added.keys * 8 > decoder.maxBytes

def evictionEvents (decoder : FecDecoder) (seq : UInt32) : List DecoderEvent :=
  if decoder.sources.get? seq = some .missing then [.evicted seq (seq + 1)] else []

def makeRoomLoop (added : Added) : Nat → FecDecoder → FecDecoder × List DecoderEvent
  | 0, decoder => (decoder, [])
  | fuel + 1, decoder =>
      if !decoder.overSymbols added && !decoder.overBytes added then (decoder, [])
      else if !decoder.repairs.isEmpty &&
          (decoder.accounting.repairSymbols + added.repairs > decoder.maxSymbols ||
            decoder.overBytes added) then
        makeRoomLoop added fuel decoder.evictOldestRepair
      else
        match decoder.newestSeq with
        | none => (decoder, [])
        | some newest =>
            match decoder.evictionCandidate newest with
            | none => (decoder, [])
            | some seq =>
                let (last, later) := makeRoomLoop added fuel
                  { decoder with sources := decoder.sources.erase seq }
                (last, decoder.evictionEvents seq ++ later)

def makeRoom (decoder : FecDecoder) (added : Added) : FecDecoder × List DecoderEvent :=
  makeRoomLoop added (decoder.repairs.length + decoder.sources.size) decoder

-- Retire equations reaching outside the incoming window, then the sources outside it.
def rollForRepair (decoder : FecDecoder) (windowBase windowLen : UInt32) :
    FecDecoder × List DecoderEvent :=
  if windowLen = 0 then (decoder, [])
  else
    let repairs := decoder.repairs.filter (fun repair =>
      seqInWindow repair.windowBase windowBase windowLen &&
        seqInWindow (repair.windowEnd - 1) windowBase windowLen)
    let obsolete := decoder.sources.keys.filter (fun seq => !seqInWindow seq windowBase windowLen)
    ({ decoder with
        repairs := repairs
        seenRepairKeys := (repairs.map ReceivedRepair.key).toFinset
        sources := decoder.sources.filter (fun seq _ => seqInWindow seq windowBase windowLen) },
      obsolete.flatMap decoder.evictionEvents)

def abandon (sources : OrdMap UInt32 SourceState) (fromSeq toSeqExclusive : UInt32) :
    OrdMap UInt32 SourceState :=
  (windowSeqs fromSeq toSeqExclusive).foldl OrdMap.erase sources

def passFrontier (decoder : FecDecoder) (viaFec : Bool) : FecDecoder :=
  { decoder.closeOpenSpanStep decoder.frontier viaFec with
    highestContiguous := some decoder.frontier }

-- The frontier jumps over a bounded gap, whose entries are forgotten.
def skipGap (decoder : FecDecoder) (scan : UInt32) : FecDecoder :=
  { decoder.noteOpenSpanAtFrontier with
    sources := abandon decoder.sources decoder.frontier scan
    highestContiguous := some (scan - 1)
    openLossSpan := none
    openLossSpanHasRecovery := false }

def advanceLoop : Nat → FecDecoder → FecDecoder × List DecoderEvent
  | 0, decoder => (decoder, [])
  | fuel + 1, decoder =>
      let next := decoder.frontier
      match decoder.sources.get? next with
      | none => (decoder, [])
      | some (.received _) =>
          advanceLoop fuel (decoder.passFrontier false)
      | some (.recovered _) =>
          advanceLoop fuel (decoder.passFrontier true)
      | some .missing =>
          let scan := scanMissing decoder.sources decoder.sources.size (next + 1)
          match decoder.sources.get? scan with
          | some (.received _) | some (.recovered _) =>
              let (last, later) := advanceLoop fuel (decoder.skipGap scan)
              (last, .lossSpan next scan :: later)
          | some .missing | none => (decoder.noteOpenSpanAtFrontier, [])

def advanceContiguous (decoder : FecDecoder) : FecDecoder × List DecoderEvent :=
  advanceLoop (decoder.sources.size + 1) decoder

def sourceDeltas (decoder : FecDecoder) (seq : UInt32) (payload : Payload) : Added :=
  match decoder.sources.get? seq with
  | some _ => ⟨0, 0, 0, payload.length⟩
  | none => ⟨1, 0, 0, payload.length + 8⟩

-- The decoder once room is made for a source and the source is stored.
def storeSource (decoder : FecDecoder) (seq : UInt32) (payload : Payload) :
    FecDecoder × List DecoderEvent :=
  let (room, events) := decoder.makeRoom (decoder.sourceDeltas seq payload)
  let noted := room.noteOpenSpanAtFrontier.noteNewest seq
  ({ noted with
      sources := noted.sources.insert seq (.received payload)
      stats := { noted.stats with
        sourceSymbolsReceived := noted.stats.sourceSymbolsReceived + 1 } },
    events ++ [DecoderEvent.recovered seq payload false])

-- Recovery and frontier advance, the common tail of both push paths.
def settle (decoder : FecDecoder) : FecDecoder × List DecoderEvent :=
  let (solved, recovered) := decoder.tryRecover
  let (advanced, events) := solved.advanceContiguous
  (advanced, recoveredEvents recovered ++ events)

def pushSource (decoder : FecDecoder) (seq : UInt32) (payload : Payload) :
    FecDecoder × List DecoderEvent :=
  if payload.length + 8 > decoder.maxBytes then (decoder, [.recovered seq payload false])
  else
    match decoder.sources.get? seq with
    | some (.received _) | some (.recovered _) => (decoder, [])
    | some .missing | none =>
        let (stored, events) := decoder.storeSource seq payload
        let (settled, later) := stored.settle
        (settled, events ++ later)

-- Sources of a window that are not yet tracked.
def absentCount (decoder : FecDecoder) (seqs : List UInt32) : Nat :=
  (seqs.filter (fun seq => !decoder.sources.contains seq)).length

def repairBytes (decoder : FecDecoder) (seqs : List UInt32) (payload : Payload) : Nat :=
  decoder.absentCount seqs * 8 + payload.length + 16

-- Drop the oldest equations until the incoming repair fits; `none` if it cannot.
def fitRepairLoop (seqs : List UInt32) (payload : Payload) : Nat → FecDecoder → Option FecDecoder
  | 0, _ => none
  | fuel + 1, decoder =>
      let overRepairs := decoder.accounting.repairSymbols ≥ decoder.maxSymbols
      let overBytes := decoder.accounting.retainedBytes + decoder.repairBytes seqs payload + 8 >
        decoder.maxBytes
      if !overRepairs && !overBytes then some decoder
      else if decoder.repairs.isEmpty then none
      else fitRepairLoop seqs payload fuel decoder.evictOldestRepair

-- The decoder once a repair is admitted and its window registered, before recovery.
def storeRepair (decoder : FecDecoder) (repair : ReceivedRepair) :
    Option (FecDecoder × List DecoderEvent) :=
  let windowLen := repair.windowEnd - repair.windowBase
  let (rolled, events) := decoder.rollForRepair repair.windowBase windowLen
  match fitRepairLoop repair.seqs repair.payload (rolled.repairs.length + 1) rolled with
  | none => none
  | some room =>
      if room.accounting.sourceSymbols + room.absentCount repair.seqs > room.maxSymbols ||
          room.accounting.retainedBytes + room.repairBytes repair.seqs repair.payload + 8 >
            room.maxBytes then none
      else
        let registered :=
          { room with
            seenRepairKeys := insert repair.key room.seenRepairKeys
            stats := { room.stats with
              repairSymbolsReceived := room.stats.repairSymbolsReceived + 1 }
            sources := registerMissing room.sources repair.seqs }
        let noted := registered.noteOpenSpanAtFrontier
        let moved :=
          if windowLen = 0 then noted
          else { noted.noteNewest (repair.windowEnd - 1) with
            rollHorizon := some (repair.windowBase, repair.windowEnd) }
        some ({ moved with repairs := moved.repairs ++ [repair] }, events)

def admitRepair (decoder : FecDecoder) (repair : ReceivedRepair) :
    Option (FecDecoder × List DecoderEvent) :=
  match decoder.storeRepair repair with
  | none => none
  | some (stored, events) =>
      let (settled, later) := stored.settle
      some (settled, events ++ later)

-- The repair passes the malformedness, horizon and dedup tests of `push_repair`.
def acceptsRepair (decoder : FecDecoder) (repair : ReceivedRepair) : Bool :=
  let windowLen := repair.windowEnd - repair.windowBase
  !(repair.payload.length + 16 > decoder.maxBytes || windowLen > 128 ||
      windowLen.toNat > decoder.maxSymbols) &&
    decoder.repairHorizonRelation repair.windowBase repair.windowEnd = .forward &&
    repair.key ∉ decoder.seenRepairKeys

def pushRepair (decoder : FecDecoder) (repair : ReceivedRepair) : FecDecoder × List DecoderEvent :=
  if decoder.acceptsRepair repair then
    -- The plan is computed on a private copy, so a failed one leaves the decoder unchanged.
    match decoder.admitRepair repair with
    | none => (decoder, [])
    | some planned => planned
  else (decoder, [])

def pushSymbol (decoder : FecDecoder) : Symbol → FecDecoder × List DecoderEvent
  | .source seq payload => decoder.pushSource seq payload
  | .repair repairSeq windowBase windowEnd payload =>
      decoder.pushRepair ⟨repairSeq, windowBase, windowEnd, payload⟩

/-- The rule for `make_room`: what dropping a repair and evicting a source keep, it keeps. -/
theorem makeRoom_invariant (added : Added) (invariant : List DecoderEvent → FecDecoder → Prop)
    (dropRepair : ∀ events decoder, invariant events decoder → decoder.repairs ≠ [] →
      invariant events decoder.evictOldestRepair)
    (evictSource : ∀ events decoder newest seq, invariant events decoder →
      decoder.newestSeq = some newest → decoder.evictionCandidate newest = some seq →
      invariant (events ++ decoder.evictionEvents seq)
        { decoder with sources := decoder.sources.erase seq })
    (decoder : FecDecoder) (initial : invariant [] decoder) :
    invariant (decoder.makeRoom added).2 (decoder.makeRoom added).1 := by
  have loop (fuel : Nat) (events : List DecoderEvent) (decoder : FecDecoder)
      (held : invariant events decoder) :
      invariant (events ++ (makeRoomLoop added fuel decoder).2)
        (makeRoomLoop added fuel decoder).1 := by
    induction fuel generalizing events decoder with
    | zero => simpa [makeRoomLoop] using held
    | succ fuel ih =>
      rw [makeRoomLoop]
      split_ifs with fits crowded
      · simpa using held
      · exact ih events _ (dropRepair events decoder held (by simp_all))
      · split
        · simpa using held
        · next newest current =>
          split
          · simpa using held
          · next seq candidate =>
            simpa [List.append_assoc] using
              ih _ _ (evictSource events decoder newest seq held current candidate)
  simpa [makeRoom] using loop _ [] decoder initial

theorem maxByKey_concat (age : UInt32 → UInt32) (seqs : List UInt32) (last : UInt32) :
    maxByKey age (seqs ++ [last]) = some last ∨
      maxByKey age (seqs ++ [last]) = maxByKey age seqs ∧ maxByKey age seqs ≠ none := by
  have step : maxByKey age (seqs ++ [last]) = match maxByKey age seqs with
      | none => some last
      | some held => if age held ≤ age last then some last else some held := by
    simp [maxByKey]
  cases best : maxByKey age seqs with
  | none => simp [step, best]
  | some held =>
    simp only [step, best]
    split_ifs <;> simp

theorem maxByKey_mem (age : UInt32 → UInt32) (seqs : List UInt32) (seq : UInt32)
    (chosen : maxByKey age seqs = some seq) : seq ∈ seqs := by
  induction seqs using List.reverseRecOn with
  | nil => simp [maxByKey] at chosen
  | append_singleton seqs last ih =>
    rcases maxByKey_concat age seqs last with newest | ⟨earlier, -⟩
    · simp_all
    · exact List.mem_append_left _ (ih (earlier ▸ chosen))

theorem maxByKey_isSome (age : UInt32 → UInt32) (seqs : List UInt32) (nonempty : seqs ≠ []) :
    maxByKey age seqs ≠ none := by
  obtain ⟨earlier, last, rfl⟩ := List.eq_nil_or_concat' seqs |>.resolve_left nonempty
  rcases maxByKey_concat age earlier last with newest | ⟨same, held⟩
  · simp [newest]
  · simpa [same] using held

theorem evictionCandidate_tracked (decoder : FecDecoder) (newest seq : UInt32)
    (candidate : decoder.evictionCandidate newest = some seq) :
    decoder.sources.get? seq ≠ none := by
  have member : seq ∈ decoder.sources.keys := by
    unfold evictionCandidate at candidate
    dsimp only at candidate
    split at candidate
    · next chosen =>
      rw [Option.some.injEq] at candidate
      exact List.mem_of_mem_filter (candidate ▸ maxByKey_mem _ _ _ chosen)
    · exact maxByKey_mem _ _ _ candidate
  intro absent
  exact (decoder.sources.get?_eq_none seq).mp absent member

theorem get?_abandon (sources : OrdMap UInt32 SourceState) (fromSeq toSeqExclusive seq : UInt32) :
    (abandon sources fromSeq toSeqExclusive).get? seq =
      if seq ∈ windowSeqs fromSeq toSeqExclusive then none else sources.get? seq := by
  unfold abandon
  generalize windowSeqs fromSeq toSeqExclusive = seqs
  induction seqs generalizing sources with
  | nil => simp
  | cons head rest ih =>
    rw [List.foldl_cons, ih]
    grind

-- A gap from the frontier up to `scan`, bounded by a known source.
structure Gap (decoder : FecDecoder) (scan : UInt32) : Prop where
  missing : ∀ seq ∈ windowSeqs decoder.frontier scan, decoder.sources.get? seq = some .missing
  starts : decoder.sources.get? decoder.frontier = some .missing
  bounded : ∃ state, decoder.sources.get? scan = some state ∧ state.isKnown

theorem gap_of_scan (decoder : FecDecoder)
    (starts : decoder.sources.get? decoder.frontier = some .missing)
    (bounded : ∃ state, decoder.sources.get? (scanMissing decoder.sources decoder.sources.size
      (decoder.frontier + 1)) = some state ∧ state.isKnown) :
    decoder.Gap (scanMissing decoder.sources decoder.sources.size (decoder.frontier + 1)) := by
  refine ⟨?_, starts, bounded⟩
  obtain ⟨passed, -, result, run, -⟩ :=
    scanMissing_spec decoder.sources decoder.sources.size (decoder.frontier + 1)
  rw [result]
  intro seq member
  simp only [windowSeqs, List.mem_map, List.mem_range] at member
  obtain ⟨offset, less, rfl⟩ := member
  have shift (n : Nat) : decoder.frontier + 1 + UInt32.ofNat n =
      decoder.frontier + UInt32.ofNat (n + 1) := by
    rw [UInt32.ofNat_add, UInt32.add_assoc, UInt32.add_comm 1]
    rfl
  rw [shift, UInt32.add_comm, UInt32.add_sub_cancel, UInt32.toNat_ofNat'] at less
  cases offset with
  | zero => simpa using starts
  | succ offset =>
    rw [← shift]
    exact run offset (by have := Nat.mod_le (passed + 1) (2 ^ 32); omega)

theorem advanceLoop_cases (fuel : Nat) (decoder : FecDecoder) :
    (decoder.sources.get? decoder.frontier = none ∧ advanceLoop (fuel + 1) decoder = (decoder, [])) ∨
    (∃ state viaFec, decoder.sources.get? decoder.frontier = some state ∧ state.isKnown ∧
      advanceLoop (fuel + 1) decoder = advanceLoop fuel (decoder.passFrontier viaFec)) ∨
    (∃ scan, decoder.Gap scan ∧
      advanceLoop (fuel + 1) decoder = ((advanceLoop fuel (decoder.skipGap scan)).1,
        .lossSpan decoder.frontier scan :: (advanceLoop fuel (decoder.skipGap scan)).2)) ∨
    (decoder.sources.get? decoder.frontier = some .missing ∧
      (∀ state, decoder.sources.get? (scanMissing decoder.sources decoder.sources.size
        (decoder.frontier + 1)) = some state → state = .missing) ∧
      advanceLoop (fuel + 1) decoder = (decoder.noteOpenSpanAtFrontier, [])) := by
  rw [advanceLoop]
  cases found : decoder.sources.get? decoder.frontier with
  | none => exact Or.inl ⟨rfl, rfl⟩
  | some state =>
    cases state with
    | received payload => exact Or.inr (Or.inl ⟨_, false, rfl, rfl, rfl⟩)
    | recovered payload => exact Or.inr (Or.inl ⟨_, true, rfl, rfl, rfl⟩)
    | missing =>
      right; right
      dsimp only
      split
      · next state bounded =>
        exact Or.inl ⟨_, decoder.gap_of_scan found ⟨_, bounded, rfl⟩, rfl⟩
      · next state bounded =>
        exact Or.inl ⟨_, decoder.gap_of_scan found ⟨_, bounded, rfl⟩, rfl⟩
      · next bounded => exact Or.inr ⟨rfl, by simp [bounded], rfl⟩
      · next bounded => exact Or.inr ⟨rfl, by simp [bounded], rfl⟩

/-- The rule for `advance_contiguous`: what each of its three moves keeps, it keeps. -/
theorem advanceContiguous_invariant (invariant : List DecoderEvent → FecDecoder → Prop)
    (pass : ∀ events decoder state viaFec, invariant events decoder →
      decoder.sources.get? decoder.frontier = some state → state.isKnown →
      invariant events (decoder.passFrontier viaFec))
    (skip : ∀ events decoder scan, invariant events decoder → decoder.Gap scan →
      invariant (events ++ [DecoderEvent.lossSpan decoder.frontier scan]) (decoder.skipGap scan))
    (opened : ∀ events decoder, invariant events decoder →
      invariant events decoder.noteOpenSpanAtFrontier)
    (decoder : FecDecoder) (initial : invariant [] decoder) :
    invariant decoder.advanceContiguous.2 decoder.advanceContiguous.1 := by
  have loop (fuel : Nat) (events : List DecoderEvent) (decoder : FecDecoder)
      (held : invariant events decoder) :
      invariant (events ++ (advanceLoop fuel decoder).2) (advanceLoop fuel decoder).1 := by
    induction fuel generalizing events decoder with
    | zero => simpa [advanceLoop] using held
    | succ fuel ih =>
      obtain ⟨-, stop⟩ | ⟨state, viaFec, found, known, next⟩ | ⟨scan, gap, next⟩ | ⟨-, -, stop⟩ :=
        advanceLoop_cases fuel decoder
      · simpa [stop] using held
      · rw [next]
        exact ih events _ (pass events decoder state viaFec held found known)
      · rw [next]
        simpa [List.append_assoc] using ih _ _ (skip events decoder scan held gap)
      · simpa [stop] using opened events decoder held
  simpa [advanceContiguous] using loop _ [] decoder initial

theorem makeRoom_within (decoder : FecDecoder) (added : Added) :
    (decoder.makeRoom added).1.Within decoder :=
  makeRoom_invariant added (fun _ current => current.Within decoder)
    (fun _ current within _ => current.evictOldestRepair_within.trans within)
    (fun _ current _ seq within _ _ => (current.erase_within seq).trans within)
    decoder (.refl decoder)

theorem rollForRepair_within (decoder : FecDecoder) (windowBase windowLen : UInt32) :
    (decoder.rollForRepair windowBase windowLen).1.Within decoder := by
  unfold rollForRepair
  split_ifs
  · exact .refl decoder
  · refine ⟨fun seq state found => ?_, fun repair member => List.mem_of_mem_filter member⟩
    rw [OrdMap.get?_filter, Option.filter_eq_some_iff] at found
    exact found.1

/-- The rule for the room an admitted repair asks for: only equations are dropped. -/
theorem fitRepairLoop_invariant (invariant : FecDecoder → Prop) (seqs : List UInt32)
    (payload : Payload)
    (dropRepair : ∀ decoder, invariant decoder → invariant decoder.evictOldestRepair)
    (fuel : Nat) (decoder room : FecDecoder) (initial : invariant decoder)
    (fit : fitRepairLoop seqs payload fuel decoder = some room) : invariant room := by
  induction fuel generalizing decoder with
  | zero => simp [fitRepairLoop] at fit
  | succ fuel ih =>
    rw [fitRepairLoop] at fit
    split_ifs at fit
    · exact Option.some.inj fit ▸ initial
    · exact ih _ (dropRepair decoder initial) fit

theorem fitRepairLoop_within {seqs : List UInt32} {payload : Payload} {fuel : Nat}
    {decoder room : FecDecoder} (fit : fitRepairLoop seqs payload fuel decoder = some room) :
    room.Within decoder ∧ room.sources = decoder.sources ∧
      room.highestContiguous = decoder.highestContiguous ∧ room.newestSeq = decoder.newestSeq ∧
      room.maxSymbols = decoder.maxSymbols ∧ room.maxBytes = decoder.maxBytes :=
  fitRepairLoop_invariant (fun room => room.Within decoder ∧ room.sources = decoder.sources ∧
      room.highestContiguous = decoder.highestContiguous ∧ room.newestSeq = decoder.newestSeq ∧
      room.maxSymbols = decoder.maxSymbols ∧ room.maxBytes = decoder.maxBytes)
    seqs payload (fun current held => ⟨current.evictOldestRepair_within.trans held.1, held.2⟩)
    fuel decoder room ⟨.refl decoder, rfl, rfl, rfl, rfl, rfl⟩ fit

theorem skipGap_within (decoder : FecDecoder) (scan : UInt32) :
    (decoder.skipGap scan).Within decoder := by
  refine ⟨fun seq state found => ?_, fun repair member => by simpa [skipGap] using member⟩
  rw [skipGap, get?_abandon] at found
  split_ifs at found
  exact found

theorem advanceContiguous_within (decoder : FecDecoder) :
    decoder.advanceContiguous.1.Within decoder :=
  advanceContiguous_invariant (fun _ current => current.Within decoder)
    (fun _ current _ viaFec within _ _ =>
      (⟨by simp [passFrontier], by simp [passFrontier]⟩ :
        (current.passFrontier viaFec).Within current).trans within)
    (fun _ current scan within _ => (current.skipGap_within scan).trans within)
    (fun _ current within =>
      (⟨by simp, by simp⟩ : current.noteOpenSpanAtFrontier.Within current).trans within)
    decoder (.refl decoder)

theorem makeRoom_frame (decoder : FecDecoder) (added : Added) :
    (decoder.makeRoom added).1.highestContiguous = decoder.highestContiguous ∧
      (decoder.makeRoom added).1.newestSeq = decoder.newestSeq ∧
      (decoder.makeRoom added).1.maxSymbols = decoder.maxSymbols ∧
      (decoder.makeRoom added).1.maxBytes = decoder.maxBytes :=
  makeRoom_invariant added (fun _ current =>
      current.highestContiguous = decoder.highestContiguous ∧
        current.newestSeq = decoder.newestSeq ∧ current.maxSymbols = decoder.maxSymbols ∧
        current.maxBytes = decoder.maxBytes)
    (fun _ _ same _ => same) (fun _ _ _ _ same _ _ => same) decoder ⟨rfl, rfl, rfl, rfl⟩

theorem advanceContiguous_frame (decoder : FecDecoder) :
    decoder.advanceContiguous.1.repairs = decoder.repairs ∧
      decoder.advanceContiguous.1.seenRepairKeys = decoder.seenRepairKeys ∧
      decoder.advanceContiguous.1.newestSeq = decoder.newestSeq ∧
      decoder.advanceContiguous.1.maxSymbols = decoder.maxSymbols ∧
      decoder.advanceContiguous.1.maxBytes = decoder.maxBytes :=
  advanceContiguous_invariant (fun _ current =>
      current.repairs = decoder.repairs ∧ current.seenRepairKeys = decoder.seenRepairKeys ∧
        current.newestSeq = decoder.newestSeq ∧ current.maxSymbols = decoder.maxSymbols ∧
        current.maxBytes = decoder.maxBytes)
    (fun _ _ _ _ same _ _ => by simpa [passFrontier] using same)
    (fun _ _ _ same _ => by simpa [skipGap] using same)
    (fun _ _ same => by simpa using same) decoder ⟨rfl, rfl, rfl, rfl, rfl⟩

instance decidableRepairStored (decoder : FecDecoder) (repair : ReceivedRepair) :
    Decidable (decoder.storeRepair repair ≠ none) :=
  decidable_of_iff ((decoder.storeRepair repair).isSome = true) Option.isSome_iff_ne_none

-- The source gets past the size and duplicate tests of `push_source`.
def Stores (decoder : FecDecoder) (seq : UInt32) (payload : Payload) : Prop :=
  payload.length + 8 ≤ decoder.maxBytes ∧
    (decoder.sources.get? seq = none ∨ decoder.sources.get? seq = some .missing)

instance (decoder : FecDecoder) (seq : UInt32) (payload : Payload) :
    Decidable (decoder.Stores seq payload) :=
  inferInstanceAs (Decidable (_ ∧ _))

theorem pushSource_cases (decoder : FecDecoder) (seq : UInt32) (payload : Payload) :
    (decoder.maxBytes < payload.length + 8 ∧
      decoder.pushSource seq payload = (decoder, [.recovered seq payload false])) ∨
    ((∃ state, decoder.sources.get? seq = some state ∧ state.isKnown) ∧
      decoder.pushSource seq payload = (decoder, [])) ∨
    (decoder.Stores seq payload ∧
      decoder.pushSource seq payload = ((decoder.storeSource seq payload).1.settle.1,
        (decoder.storeSource seq payload).2 ++ (decoder.storeSource seq payload).1.settle.2)) := by
  unfold pushSource
  split_ifs with large
  · exact Or.inl ⟨large, rfl⟩
  · right
    split
    · next found => exact Or.inl ⟨⟨_, found, rfl⟩, rfl⟩
    · next found => exact Or.inl ⟨⟨_, found, rfl⟩, rfl⟩
    · next found => exact Or.inr ⟨⟨by omega, by simp [found]⟩, rfl⟩
    · next found => exact Or.inr ⟨⟨by omega, by simp [found]⟩, rfl⟩

-- What an admitted repair leaves behind, given the decoder `room` it fits into.
structure RepairStored (decoder : FecDecoder) (repair : ReceivedRepair) (room stored : FecDecoder) :
    Prop where
  planned : decoder.storeRepair repair ≠ none
  retained : room.Within
    (decoder.rollForRepair repair.windowBase (repair.windowEnd - repair.windowBase)).1
  roomSources : room.sources =
    (decoder.rollForRepair repair.windowBase (repair.windowEnd - repair.windowBase)).1.sources
  roomKeys : (decoder.rollForRepair repair.windowBase
        (repair.windowEnd - repair.windowBase)).1.seenRepairKeys =
      ((decoder.rollForRepair repair.windowBase
        (repair.windowEnd - repair.windowBase)).1.repairs.map ReceivedRepair.key).toFinset →
    room.seenRepairKeys = (room.repairs.map ReceivedRepair.key).toFinset
  repairsFit : room.repairs.length < room.maxSymbols
  sourcesFit : room.sources.size + room.absentCount repair.seqs ≤ room.maxSymbols
  bytesFit : room.accounting.retainedBytes + room.repairBytes repair.seqs repair.payload + 8 ≤
    room.maxBytes
  sources : stored.sources = registerMissing room.sources repair.seqs
  repairs : stored.repairs = room.repairs ++ [repair]
  seenRepairKeys : stored.seenRepairKeys = insert repair.key room.seenRepairKeys
  highestContiguous : stored.highestContiguous = decoder.highestContiguous
  newestSeq : stored.newestSeq = decoder.newestSeq ∧
    repair.windowEnd - repair.windowBase = 0 ∨ stored.newestSeq ≠ none
  maxSymbols : stored.maxSymbols = room.maxSymbols ∧ room.maxSymbols = decoder.maxSymbols
  maxBytes : stored.maxBytes = room.maxBytes ∧ room.maxBytes = decoder.maxBytes

theorem rollForRepair_frame (decoder : FecDecoder) (windowBase windowLen : UInt32) :
    (decoder.rollForRepair windowBase windowLen).1.highestContiguous = decoder.highestContiguous ∧
      (decoder.rollForRepair windowBase windowLen).1.newestSeq = decoder.newestSeq ∧
      (decoder.rollForRepair windowBase windowLen).1.maxSymbols = decoder.maxSymbols ∧
      (decoder.rollForRepair windowBase windowLen).1.maxBytes = decoder.maxBytes := by
  unfold rollForRepair
  split_ifs <;> exact ⟨rfl, rfl, rfl, rfl⟩

theorem fitRepairLoop_fits {seqs : List UInt32} {payload : Payload} {fuel : Nat}
    {decoder room : FecDecoder} (fit : fitRepairLoop seqs payload fuel decoder = some room) :
    room.repairs.length < room.maxSymbols := by
  induction fuel generalizing decoder with
  | zero => simp [fitRepairLoop] at fit
  | succ fuel ih =>
    rw [fitRepairLoop] at fit
    split_ifs at fit with fits
    · rw [← Option.some.inj fit]
      simp [accounting] at fits
      omega
    · exact ih fit

theorem fitRepairLoop_keys {seqs : List UInt32} {payload : Payload} {fuel : Nat}
    {decoder room : FecDecoder} (fit : fitRepairLoop seqs payload fuel decoder = some room)
    (keys : decoder.seenRepairKeys = (decoder.repairs.map ReceivedRepair.key).toFinset) :
    room.seenRepairKeys = (room.repairs.map ReceivedRepair.key).toFinset :=
  fitRepairLoop_invariant (fun room => room.seenRepairKeys =
    (room.repairs.map ReceivedRepair.key).toFinset) seqs payload (fun _ _ => rfl) fuel decoder room
    keys fit

theorem storeRepair_some {decoder stored : FecDecoder} {repair : ReceivedRepair}
    {events : List DecoderEvent} (admitted : decoder.storeRepair repair = some (stored, events)) :
    (∃ room, decoder.RepairStored repair room stored) ∧ events =
      (decoder.rollForRepair repair.windowBase (repair.windowEnd - repair.windowBase)).2 := by
  have planned : decoder.storeRepair repair ≠ none := by simp [admitted]
  unfold storeRepair at admitted
  dsimp only at admitted
  split at admitted
  · simp at admitted
  · next room fit =>
    split_ifs at admitted with full empty
    all_goals
      simp only [Bool.or_eq_true, decide_eq_true_eq, not_or, not_lt] at full
      obtain ⟨within, sources, highest, newest, symbols, bytes⟩ := fitRepairLoop_within fit
      obtain ⟨oldHighest, oldNewest, oldSymbols, oldBytes⟩ := decoder.rollForRepair_frame
        repair.windowBase (repair.windowEnd - repair.windowBase)
      rw [oldHighest] at highest
      rw [oldNewest] at newest
      rw [oldSymbols] at symbols
      rw [oldBytes] at bytes
      simp only [Option.some.injEq, Prod.mk.injEq] at admitted
      obtain ⟨rfl, rfl⟩ := admitted
      refine ⟨⟨room, planned, within, sources, fitRepairLoop_keys fit, fitRepairLoop_fits fit, full.1,
        full.2, ?_, ?_, ?_, ?_, ?_, ?_, ?_⟩, rfl⟩ <;>
      simp [highest, symbols, bytes, newest, empty, noteNewest_newestSeq]

theorem pushRepair_cases (decoder : FecDecoder) (repair : ReceivedRepair) :
    decoder.pushRepair repair = (decoder, []) ∨
    ∃ room stored, decoder.acceptsRepair repair ∧ decoder.RepairStored repair room stored ∧
      decoder.pushRepair repair = (stored.settle.1,
        (decoder.rollForRepair repair.windowBase (repair.windowEnd - repair.windowBase)).2 ++
          stored.settle.2) := by
  unfold pushRepair
  split_ifs with accepted
  · unfold admitRepair
    cases admitted : decoder.storeRepair repair with
    | none => exact Or.inl rfl
    | some result =>
      obtain ⟨⟨room, stored⟩, events⟩ := storeRepair_some admitted
      exact Or.inr ⟨room, result.1, accepted, stored, by rw [← events]⟩
  · exact Or.inl rfl

end FecDecoder

end BetterParsec
