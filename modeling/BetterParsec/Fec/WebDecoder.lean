import BetterParsec.Fec.NativeDecoder

set_option autoImplicit false
set_option linter.all false

/-!
# Browser decoder

The operations of `fec.ts` on the shared decoder state. Unlike the native
decoder it checks beforehand that the pending admission can fit, never evicts
the sources of that admission, keeps abandoned entries, and moves the frontier
through a `missing` entry it evicts.
-/

namespace BetterParsec

namespace WebDecoder

-- The source `makeRoom` gives up next, never one of the pending admission.
def evictionCandidate (decoder : FecDecoder) (protectedSources : List UInt32) (newest : UInt32) :
    Option UInt32 :=
  let frontier := decoder.highestContiguous.getD newest
  let candidates := decoder.sources.keys.filter (fun seq => seq ∉ protectedSources)
  let behind := candidates.filter (fun seq => frontier - seq < 0x80000000)
  match FecDecoder.maxByKey (fun seq => frontier - seq) behind with
  | some seq => some seq
  | none => FecDecoder.maxByKey (fun seq => newest - seq) candidates

-- A forced eviction of a `missing` entry moves the acknowledgement floor through it.
def advanceLossFloor (decoder : FecDecoder) (seq : UInt32) : FecDecoder :=
  let closed :=
    { decoder with
      stats := { decoder.stats with
        lossSpans := decoder.stats.lossSpans + if decoder.openLossSpan.isNone then 1 else 0 }
      openLossSpan := none
      openLossSpanHasRecovery := false }
  match decoder.highestContiguous with
  | none => { closed with highestContiguous := some seq }
  | some highest =>
      if serialCmp seq highest = some .gt then { closed with highestContiguous := some seq }
      else closed

def evictSource (decoder : FecDecoder) (seq : UInt32) : FecDecoder :=
  let removed := { decoder with sources := decoder.sources.erase seq }
  if decoder.sources.get? seq = some .missing then advanceLossFloor removed seq else removed

def makeRoomLoop (added : Added) (protectedSources : List UInt32) :
    Nat → FecDecoder → FecDecoder × List DecoderEvent
  | 0, decoder => (decoder, [])
  | fuel + 1, decoder =>
      if !decoder.overSymbols added && !decoder.overBytes added then (decoder, [])
      else if !decoder.repairs.isEmpty &&
          (decoder.accounting.repairSymbols + added.repairs > decoder.maxSymbols ||
            decoder.overBytes added) then
        makeRoomLoop added protectedSources fuel decoder.evictOldestRepair
      else
        match decoder.newestSeq with
        | none => (decoder, [])
        | some newest =>
            match evictionCandidate decoder protectedSources newest with
            | none => (decoder, [])
            | some seq =>
                let (last, later) := makeRoomLoop added protectedSources fuel
                  (evictSource decoder seq)
                (last, decoder.evictionEvents seq ++ later)

def makeRoom (decoder : FecDecoder) (added : Added) (protectedSources : List UInt32) :
    FecDecoder × List DecoderEvent :=
  makeRoomLoop added protectedSources (decoder.repairs.length + decoder.sources.size) decoder

-- Whether the deltas fit beside what is left once all unprotected state is evicted.
def canMakeRoom (decoder : FecDecoder) (added : Added) (protectedSources : List UInt32) : Bool :=
  let kept := decoder.sources.filter (fun seq _ => seq ∈ protectedSources)
  kept.size + added.sources ≤ decoder.maxSymbols && added.repairs ≤ decoder.maxSymbols &&
    kept.weight SourceState.bytes + added.bytes + added.keys * 8 ≤ decoder.maxBytes

-- The frontier jumps over a bounded gap, whose entries stay in `sources` behind it.
def skipGap (decoder : FecDecoder) (scan : UInt32) : FecDecoder :=
  { decoder.noteOpenSpanAtFrontier with
    highestContiguous := some (scan - 1)
    openLossSpan := none
    openLossSpanHasRecovery := false }

def advanceLoop : Nat → FecDecoder → FecDecoder × List DecoderEvent
  | 0, decoder => (decoder, [])
  | fuel + 1, decoder =>
      let next := decoder.frontier
      match decoder.sources.get? next with
      | none => (decoder, [])
      | some (.received _) => advanceLoop fuel (decoder.passFrontier false)
      | some (.recovered _) => advanceLoop fuel (decoder.passFrontier true)
      | some .missing =>
          let scan := FecDecoder.scanMissing decoder.sources decoder.sources.size (next + 1)
          match decoder.sources.get? scan with
          | some (.received _) | some (.recovered _) =>
              let (last, later) := advanceLoop fuel (skipGap decoder scan)
              (last, .lossSpan next scan :: later)
          | some .missing | none => (decoder.noteOpenSpanAtFrontier, [])

def advanceContiguous (decoder : FecDecoder) : FecDecoder × List DecoderEvent :=
  advanceLoop (2 * decoder.sources.size + 1) decoder

def settle (decoder : FecDecoder) : FecDecoder × List DecoderEvent :=
  let (solved, recovered) := decoder.tryRecover
  let (advanced, events) := advanceContiguous solved
  (advanced, FecDecoder.recoveredEvents recovered ++ events)

def storeSource (decoder : FecDecoder) (seq : UInt32) (payload : Payload) :
    FecDecoder × List DecoderEvent :=
  let (room, events) := makeRoom (decoder.noteNewest seq) (decoder.sourceDeltas seq payload) [seq]
  let noted := room.noteOpenSpanAtFrontier
  ({ noted with
      sources := noted.sources.insert seq (.received payload)
      stats := { noted.stats with
        sourceSymbolsReceived := noted.stats.sourceSymbolsReceived + 1 } },
    events ++ [DecoderEvent.recovered seq payload false])

def pushSource (decoder : FecDecoder) (seq : UInt32) (payload : Payload) :
    FecDecoder × List DecoderEvent :=
  if payload.length + 8 > decoder.maxBytes then (decoder, [.recovered seq payload false])
  else
    match decoder.sources.get? seq with
    | some (.received _) | some (.recovered _) => (decoder, [])
    | some .missing | none =>
        if !canMakeRoom decoder (decoder.sourceDeltas seq payload) [seq] then
          (decoder, [.recovered seq payload false])
        else
          let stored := storeSource decoder seq payload
          let settled := settle stored.1
          (settled.1, stored.2 ++ settled.2)

def repairDeltas (decoder : FecDecoder) (repair : ReceivedRepair) : Added :=
  ⟨decoder.absentCount repair.seqs, 1, 1, decoder.repairBytes repair.seqs repair.payload⟩

def noteWindow (decoder : FecDecoder) (repair : ReceivedRepair) : FecDecoder :=
  if repair.windowEnd - repair.windowBase = 0 then decoder
  else { decoder.noteNewest (repair.windowEnd - 1) with
    rollHorizon := some (repair.windowBase, repair.windowEnd) }

-- The decoder once the repair is admitted and its window registered, before recovery.
def storeRepair (decoder : FecDecoder) (repair : ReceivedRepair) :
    FecDecoder × List DecoderEvent :=
  let (room, events) :=
    makeRoom (noteWindow decoder repair) (repairDeltas decoder repair) repair.seqs
  let registered :=
    { room with
      seenRepairKeys := insert repair.key room.seenRepairKeys
      stats := { room.stats with
        repairSymbolsReceived := room.stats.repairSymbolsReceived + 1 }
      sources := FecDecoder.registerMissing room.sources repair.seqs }
  let noted := registered.noteOpenSpanAtFrontier
  ({ noted with repairs := noted.repairs ++ [repair] }, events)

-- The repair passes the size, horizon, dedup and room tests of `pushRepair`.
def acceptsRepair (decoder : FecDecoder) (repair : ReceivedRepair) : Bool :=
  !(repair.payload.length + 16 > decoder.maxBytes ||
      repair.windowEnd - repair.windowBase > 128) &&
    decoder.repairHorizonRelation repair.windowBase repair.windowEnd = .forward &&
    repair.key ∉ decoder.seenRepairKeys &&
    canMakeRoom decoder (repairDeltas decoder repair) repair.seqs

def pushRepair (decoder : FecDecoder) (repair : ReceivedRepair) : FecDecoder × List DecoderEvent :=
  if acceptsRepair decoder repair then
    let stored := storeRepair decoder repair
    let settled := settle stored.1
    (settled.1, stored.2 ++ settled.2)
  else (decoder, [])

def pushSymbol (decoder : FecDecoder) : Symbol → FecDecoder × List DecoderEvent
  | .source seq payload => pushSource decoder seq payload
  | .repair repairSeq windowBase windowEnd payload =>
      pushRepair decoder ⟨repairSeq, windowBase, windowEnd, payload⟩

/-- The rule for `makeRoom`: what dropping a repair and evicting a source keep, it keeps. -/
theorem makeRoom_invariant (added : Added) (protectedSources : List UInt32)
    (invariant : List DecoderEvent → FecDecoder → Prop)
    (dropRepair : ∀ events decoder, invariant events decoder → decoder.repairs ≠ [] →
      invariant events decoder.evictOldestRepair)
    (evict : ∀ events decoder newest seq, invariant events decoder →
      decoder.newestSeq = some newest →
      evictionCandidate decoder protectedSources newest = some seq →
      invariant (events ++ decoder.evictionEvents seq) (evictSource decoder seq))
    (decoder : FecDecoder) (initial : invariant [] decoder) :
    invariant (makeRoom decoder added protectedSources).2
      (makeRoom decoder added protectedSources).1 := by
  have loop (fuel : Nat) (events : List DecoderEvent) (decoder : FecDecoder)
      (held : invariant events decoder) :
      invariant (events ++ (makeRoomLoop added protectedSources fuel decoder).2)
        (makeRoomLoop added protectedSources fuel decoder).1 := by
    induction fuel generalizing events decoder with
    | zero => simpa [makeRoomLoop] using held
    | succ fuel ih =>
      rw [makeRoomLoop]
      split_ifs with fits crowded
      · simpa using held
      · exact ih events _ (dropRepair events decoder held (by simp_all))
      · split
        · simpa using held
        · next newest current =>
          split
          · simpa using held
          · next seq candidate =>
            simpa [List.append_assoc] using
              ih _ _ (evict events decoder newest seq held current candidate)
  simpa [makeRoom] using loop _ [] decoder initial

@[simp] theorem advanceLossFloor_sources (decoder : FecDecoder) (seq : UInt32) :
    (advanceLossFloor decoder seq).sources = decoder.sources := by
  unfold advanceLossFloor
  dsimp only
  split
  · rfl
  · split_ifs <;> rfl

@[simp] theorem advanceLossFloor_repairs (decoder : FecDecoder) (seq : UInt32) :
    (advanceLossFloor decoder seq).repairs = decoder.repairs := by
  unfold advanceLossFloor
  dsimp only
  split
  · rfl
  · split_ifs <;> rfl

theorem evictSource_within (decoder : FecDecoder) (seq : UInt32) :
    (evictSource decoder seq).Within decoder := by
  have erased := decoder.erase_within seq
  unfold evictSource
  dsimp only
  split_ifs
  · exact ⟨by simpa using erased.sources, by simp⟩
  · exact erased

theorem makeRoom_within (decoder : FecDecoder) (added : Added) (protectedSources : List UInt32) :
    (makeRoom decoder added protectedSources).1.Within decoder :=
  makeRoom_invariant added protectedSources (fun _ current => current.Within decoder)
    (fun _ current within _ => current.evictOldestRepair_within.trans within)
    (fun _ current _ seq within _ _ => (evictSource_within current seq).trans within)
    decoder (.refl decoder)

theorem advanceLoop_cases (fuel : Nat) (decoder : FecDecoder) :
    (decoder.sources.get? decoder.frontier = none ∧ advanceLoop (fuel + 1) decoder = (decoder, [])) ∨
    (∃ state viaFec, decoder.sources.get? decoder.frontier = some state ∧ state.isKnown ∧
      advanceLoop (fuel + 1) decoder = advanceLoop fuel (decoder.passFrontier viaFec)) ∨
    (∃ scan, decoder.Gap scan ∧
      advanceLoop (fuel + 1) decoder = ((advanceLoop fuel (skipGap decoder scan)).1,
        .lossSpan decoder.frontier scan :: (advanceLoop fuel (skipGap decoder scan)).2)) ∨
    (decoder.sources.get? decoder.frontier = some .missing ∧
      advanceLoop (fuel + 1) decoder = (decoder.noteOpenSpanAtFrontier, [])) := by
  rw [advanceLoop]
  cases found : decoder.sources.get? decoder.frontier with
  | none => exact Or.inl ⟨rfl, rfl⟩
  | some state =>
    cases state with
    | received payload => exact Or.inr (Or.inl ⟨_, false, rfl, rfl, rfl⟩)
    | recovered payload => exact Or.inr (Or.inl ⟨_, true, rfl, rfl, rfl⟩)
    | missing =>
      right; right
      dsimp only
      split
      · next state bounded =>
        exact Or.inl ⟨_, decoder.gap_of_scan found ⟨_, bounded, rfl⟩, rfl⟩
      · next state bounded =>
        exact Or.inl ⟨_, decoder.gap_of_scan found ⟨_, bounded, rfl⟩, rfl⟩
      · exact Or.inr ⟨rfl, rfl⟩
      · exact Or.inr ⟨rfl, rfl⟩

/-- The frontier moves over the retained state without changing it. -/
theorem advanceContiguous_keeps (decoder : FecDecoder) :
    (advanceContiguous decoder).1.sources = decoder.sources ∧
      (advanceContiguous decoder).1.repairs = decoder.repairs ∧
      ∀ event ∈ (advanceContiguous decoder).2, ∃ first last, event = .lossSpan first last := by
  have loop (fuel : Nat) (decoder : FecDecoder) :
      (advanceLoop fuel decoder).1.sources = decoder.sources ∧
        (advanceLoop fuel decoder).1.repairs = decoder.repairs ∧
        ∀ event ∈ (advanceLoop fuel decoder).2, ∃ first last, event = .lossSpan first last := by
    induction fuel generalizing decoder with
    | zero => simp [advanceLoop]
    | succ fuel ih =>
      obtain ⟨-, stop⟩ | ⟨state, viaFec, -, -, next⟩ | ⟨scan, -, next⟩ | ⟨-, stop⟩ :=
        advanceLoop_cases fuel decoder
      · simp [stop]
      · rw [next]
        simpa [FecDecoder.passFrontier] using ih (decoder.passFrontier viaFec)
      · rw [next]
        simpa [skipGap] using ih (skipGap decoder scan)
      · simp [stop]
  exact loop _ decoder

theorem pushSource_cases (decoder : FecDecoder) (seq : UInt32) (payload : Payload) :
    pushSource decoder seq payload = (decoder, [.recovered seq payload false]) ∨
    pushSource decoder seq payload = (decoder, []) ∨
    (decoder.Stores seq payload ∧
      canMakeRoom decoder (decoder.sourceDeltas seq payload) [seq] ∧
      pushSource decoder seq payload = ((settle (storeSource decoder seq payload).1).1,
        (storeSource decoder seq payload).2 ++ (settle (storeSource decoder seq payload).1).2)) := by
  unfold pushSource
  by_cases large : payload.length + 8 > decoder.maxBytes
  · exact Or.inl (by rw [if_pos large])
  · rw [if_neg large]
    by_cases room : canMakeRoom decoder (decoder.sourceDeltas seq payload) [seq] = true
    · have stores (unknown : decoder.sources.get? seq = none ∨
          decoder.sources.get? seq = some .missing) : decoder.Stores seq payload :=
        ⟨by omega, unknown⟩
      split
      · exact Or.inr (Or.inl rfl)
      · exact Or.inr (Or.inl rfl)
      · next found =>
        rw [room]
        exact Or.inr (Or.inr ⟨stores (by simp [found]), rfl, rfl⟩)
      · next found =>
        rw [room]
        exact Or.inr (Or.inr ⟨stores (by simp [found]), rfl, rfl⟩)
    · rw [Bool.not_eq_true] at room
      rw [room]
      split
      · exact Or.inr (Or.inl rfl)
      · exact Or.inr (Or.inl rfl)
      · exact Or.inl rfl
      · exact Or.inl rfl

theorem pushRepair_cases (decoder : FecDecoder) (repair : ReceivedRepair) :
    pushRepair decoder repair = (decoder, []) ∨
    (acceptsRepair decoder repair ∧
      pushRepair decoder repair = ((settle (storeRepair decoder repair).1).1,
        (storeRepair decoder repair).2 ++ (settle (storeRepair decoder repair).1).2)) := by
  unfold pushRepair
  split_ifs with accepted
  · exact Or.inr ⟨accepted, rfl⟩
  · exact Or.inl rfl

@[simp] theorem noteWindow_sources (decoder : FecDecoder) (repair : ReceivedRepair) :
    (noteWindow decoder repair).sources = decoder.sources := by
  unfold noteWindow
  split_ifs <;> simp

@[simp] theorem noteWindow_repairs (decoder : FecDecoder) (repair : ReceivedRepair) :
    (noteWindow decoder repair).repairs = decoder.repairs := by
  unfold noteWindow
  split_ifs <;> simp

end WebDecoder

end BetterParsec
