import BetterParsec.Fec.Channel
import BetterParsec.Fec.Equations
import BetterParsec.Fec.WebDecoder

set_option autoImplicit false
set_option linter.all false

/-!
# Recovered payloads

When every symbol comes from one encoder, a decoder reports the payloads that
encoder was given, as long as elimination only starts from equations whose
sources are still tracked.
-/

namespace BetterParsec

def DecoderEvent.Faithful (truth : UInt32 → Payload) : DecoderEvent → Prop
  | .recovered seq payload _ => payload = truth seq
  | .lossSpan _ _ | .evicted _ _ => True

namespace FecDecoder

-- Everything the decoder holds is true of the stream.
structure Sound (truth : UInt32 → Payload) (decoder : FecDecoder) : Prop where
  known : decoder.Known truth
  genuine : ∀ repair ∈ decoder.repairs, repair.Genuine truth
  narrow : ∀ repair ∈ decoder.repairs, repair.windowEnd - repair.windowBase ≤ 128

theorem Sound.within {truth : UInt32 → Payload} {before after : FecDecoder}
    (sound : before.Sound truth) (within : after.Within before) : after.Sound truth :=
  ⟨fun seq state payload found => sound.known seq state payload (within.sources seq state found),
    fun repair member => sound.genuine repair (within.repairs repair member),
    fun repair member => sound.narrow repair (within.repairs repair member)⟩

theorem evictionEvents_faithful (truth : UInt32 → Payload) (decoder : FecDecoder) (seq : UInt32) :
    ∀ event ∈ decoder.evictionEvents seq, event.Faithful truth := by
  unfold evictionEvents
  split_ifs <;> simp [DecoderEvent.Faithful]

theorem makeRoom_faithful (truth : UInt32 → Payload) (decoder : FecDecoder) (added : Added) :
    ∀ event ∈ (decoder.makeRoom added).2, event.Faithful truth := by
  refine makeRoom_invariant added (fun events _ => ∀ event ∈ events, event.Faithful truth)
    (fun _ _ faithful _ => faithful) ?_ decoder (by simp)
  intro events current newest seq faithful _ _ event member
  rcases List.mem_append.mp member with old | new
  · exact faithful event old
  · exact current.evictionEvents_faithful truth seq event new

theorem rollForRepair_faithful (truth : UInt32 → Payload) (decoder : FecDecoder)
    (windowBase windowLen : UInt32) :
    ∀ event ∈ (decoder.rollForRepair windowBase windowLen).2, event.Faithful truth := by
  intro event member
  unfold rollForRepair at member
  split_ifs at member
  · simp at member
  · obtain ⟨seq, -, inside⟩ := List.mem_flatMap.mp member
    exact decoder.evictionEvents_faithful truth seq event inside

theorem advanceContiguous_faithful (truth : UInt32 → Payload) (decoder : FecDecoder) :
    ∀ event ∈ decoder.advanceContiguous.2, event.Faithful truth := by
  refine advanceContiguous_invariant (fun events _ => ∀ event ∈ events, event.Faithful truth)
    (fun _ _ _ _ faithful _ _ => faithful) ?_ (fun _ _ faithful => faithful) decoder (by simp)
  intro events current scan faithful _ event member
  rcases List.mem_append.mp member with old | new
  · exact faithful event old
  · rw [List.mem_singleton.mp new]
    trivial

theorem recoveredEvents_faithful {truth : UInt32 → Payload} {recovered : List (UInt32 × Payload)}
    (right : ∀ solved ∈ recovered, solved.2 = truth solved.1) :
    ∀ event ∈ recoveredEvents recovered, event.Faithful truth := by
  intro event member
  obtain ⟨solved, inside, rfl⟩ := List.mem_map.mp member
  exact right solved inside

theorem tryRecover_keeps_sound {truth : UInt32 → Payload} {decoder : FecDecoder}
    (short : ∀ seq, (truth seq).length < 65536) (sound : decoder.Sound truth)
    (coupled : ∀ repair ∈ decoder.repairs, decoder.Coupled repair) :
    decoder.tryRecover.1.Sound truth := by
  obtain ⟨-, known, same⟩ := tryRecover_sound short sound.known sound.genuine coupled
  exact ⟨known, by rw [same]; exact sound.genuine, by rw [same]; exact sound.narrow⟩

theorem settle_sound {truth : UInt32 → Payload} {decoder : FecDecoder}
    (short : ∀ seq, (truth seq).length < 65536) (sound : decoder.Sound truth)
    (coupled : ∀ repair ∈ decoder.repairs, decoder.Coupled repair) :
    decoder.settle.1.Sound truth ∧ ∀ event ∈ decoder.settle.2, event.Faithful truth := by
  refine ⟨(tryRecover_keeps_sound short sound coupled).within
    decoder.tryRecover.1.advanceContiguous_within, fun event member => ?_⟩
  rcases List.mem_append.mp member with recovered | advanced
  · exact recoveredEvents_faithful
      (tryRecover_sound short sound.known sound.genuine coupled).1 event recovered
  · exact advanceContiguous_faithful truth _ event advanced

theorem insert_received_sound {truth : UInt32 → Payload} {decoder stored : FecDecoder}
    {seq : UInt32} {payload : Payload} (sound : decoder.Sound truth) (right : payload = truth seq)
    (sources : stored.sources = decoder.sources.insert seq (.received payload))
    (repairs : stored.repairs = decoder.repairs) : stored.Sound truth := by
  refine ⟨?_, by rw [repairs]; exact sound.genuine, by rw [repairs]; exact sound.narrow⟩
  intro other state held found value
  rw [sources, OrdMap.get?_insert] at found
  split_ifs at found with same
  · rw [← Option.some.inj found] at value
    rw [same, ← right, ← Option.some.inj value]
  · exact sound.known other state held found value

-- Every retained equation with an unknown besides `seq` speaks only about tracked seqs and `seq`
-- itself.
def CoupledBut (room : FecDecoder) (seq : UInt32) : Prop :=
  ∀ repair ∈ room.repairs,
    (∃ other ∈ repair.seqs, other ≠ seq ∧ room.sources.get? other = some .missing) →
    ∀ other ∈ repair.seqs, other = seq ∨ room.sources.get? other ≠ none

instance (room : FecDecoder) (seq : UInt32) : Decidable (room.CoupledBut seq) :=
  inferInstanceAs (Decidable (∀ repair ∈ room.repairs, _ → _))

/-- Storing a source under that condition leaves the equations coupled. -/
theorem coupled_of_insert {room stored : FecDecoder} {seq : UInt32} {payload : Payload}
    (sources : stored.sources = room.sources.insert seq (.received payload))
    (repairs : stored.repairs = room.repairs)
    (coupled : room.CoupledBut seq) :
    ∀ repair ∈ stored.repairs, stored.Coupled repair := by
  rintro repair retained ⟨unknown, inside, missing⟩ other member
  rw [sources, OrdMap.get?_insert] at missing ⊢
  by_cases same : unknown = seq
  · simp [same] at missing
  · rw [if_neg same] at missing
    rcases coupled repair (repairs ▸ retained) ⟨unknown, inside, same, missing⟩ other member with
      arriving | tracked
    · simp [arriving]
    · split_ifs <;> simp [tracked]

theorem pushSource_sound {truth : UInt32 → Payload} {decoder : FecDecoder} {seq : UInt32}
    {payload : Payload} (short : ∀ seq, (truth seq).length < 65536) (sound : decoder.Sound truth)
    (right : payload = truth seq)
    (coupled : decoder.Stores seq payload →
      (decoder.makeRoom (decoder.sourceDeltas seq payload)).1.CoupledBut seq) :
    (decoder.pushSource seq payload).1.Sound truth ∧
      ∀ event ∈ (decoder.pushSource seq payload).2, event.Faithful truth := by
  obtain ⟨-, result⟩ | ⟨-, result⟩ | ⟨stores, result⟩ := decoder.pushSource_cases seq payload
  · rw [result]
    exact ⟨sound, by simpa [DecoderEvent.Faithful] using right⟩
  · rw [result]
    exact ⟨sound, by simp⟩
  · have sources : (decoder.storeSource seq payload).1.sources =
        (decoder.makeRoom (decoder.sourceDeltas seq payload)).1.sources.insert seq
          (.received payload) := by simp [storeSource]
    have repairs : (decoder.storeSource seq payload).1.repairs =
        (decoder.makeRoom (decoder.sourceDeltas seq payload)).1.repairs := by simp [storeSource]
    have stored := insert_received_sound (sound.within (decoder.makeRoom_within _)) right sources
      repairs
    obtain ⟨settled, faithful⟩ := settle_sound short stored
      (coupled_of_insert sources repairs (coupled stores))
    rw [result]
    refine ⟨settled, fun event member => ?_⟩
    rcases List.mem_append.mp member with first | later
    · rcases List.mem_append.mp first with evicted | arrived
      · exact makeRoom_faithful truth decoder _ event evicted
      · rw [List.mem_singleton.mp arrived]
        exact right
    · exact faithful event later

/-- A window between two seqs of a serial interval lies inside the interval. -/
theorem windowSeqs_inside {repair : ReceivedRepair} {base len seq : UInt32}
    (narrow : repair.windowEnd - repair.windowBase ≤ 128) (short : len ≤ 128)
    (first : repair.windowBase - base < len) (last : repair.windowEnd - 1 - base < len)
    (member : seq ∈ repair.seqs) : seq - base < len := by
  rw [ReceivedRepair.seqs, mem_windowSeqs] at member
  grind

/-- Rolling first and registering the window last leaves every equation fully tracked. -/
theorem RepairStored.tracked {decoder room stored : FecDecoder} {repair : ReceivedRepair}
    (admitted : decoder.RepairStored repair room stored)
    (narrow : ∀ other ∈ decoder.repairs, other.windowEnd - other.windowBase ≤ 128)
    (nonempty : repair.windowEnd - repair.windowBase ≠ 0)
    (short : repair.windowEnd - repair.windowBase ≤ 128) :
    ∀ other ∈ stored.repairs, ∀ seq ∈ other.seqs, stored.sources.get? seq ≠ none := by
  intro other retained seq member
  have inside : seq ∈ repair.seqs := by
    rw [admitted.repairs, List.mem_append, List.mem_singleton] at retained
    rcases retained with old | rfl
    · have rolled := admitted.retained.repairs other old
      have before := (decoder.rollForRepair_within repair.windowBase
        (repair.windowEnd - repair.windowBase)).repairs other rolled
      simp only [rollForRepair, nonempty, if_false, List.mem_filter, Bool.and_eq_true, seqInWindow,
        decide_eq_true_eq] at rolled
      rw [ReceivedRepair.seqs, mem_windowSeqs]
      exact windowSeqs_inside (narrow other before) short rolled.2.1 rolled.2.2 member
    · exact member
  rw [admitted.sources, get?_registerMissing]
  split_ifs with absent
  · simp
  · exact fun none => absent ⟨none, inside⟩

/-- Registering the window of a true repair keeps everything true. -/
theorem Sound.register {truth : UInt32 → Payload} {room stored : FecDecoder}
    {repair : ReceivedRepair} (sound : room.Sound truth)
    (sources : stored.sources = registerMissing room.sources repair.seqs)
    (repairs : stored.repairs = room.repairs ++ [repair]) (genuine : repair.Genuine truth)
    (narrow : repair.windowEnd - repair.windowBase ≤ 128) : stored.Sound truth := by
  refine ⟨?_, ?_, ?_⟩
  · intro seq state payload found held
    rw [sources, get?_registerMissing] at found
    split_ifs at found
    · rw [← Option.some.inj found] at held
      simp [SourceState.payload] at held
    · exact sound.known seq state payload found held
  · intro other retained
    rw [repairs, List.mem_append, List.mem_singleton] at retained
    rcases retained with old | rfl
    · exact sound.genuine other old
    · exact genuine
  · intro other retained
    rw [repairs, List.mem_append, List.mem_singleton] at retained
    rcases retained with old | rfl
    · exact sound.narrow other old
    · exact narrow

theorem pushRepair_sound {truth : UInt32 → Payload} {decoder : FecDecoder}
    {repair : ReceivedRepair} (short : ∀ seq, (truth seq).length < 65536)
    (sound : decoder.Sound truth) (genuine : repair.Genuine truth)
    (nonempty : repair.windowEnd - repair.windowBase ≠ 0) :
    (decoder.pushRepair repair).1.Sound truth ∧
      ∀ event ∈ (decoder.pushRepair repair).2, event.Faithful truth := by
  obtain result | ⟨room, stored, accepted, admitted, result⟩ := decoder.pushRepair_cases repair
  · rw [result]
    exact ⟨sound, by simp⟩
  · have narrow : repair.windowEnd - repair.windowBase ≤ 128 := by
      simp only [acceptsRepair, Bool.and_eq_true, Bool.not_eq_true', Bool.or_eq_false_iff,
        decide_eq_false_iff_not] at accepted
      simpa using accepted.1.1.1.2
    have roomSound := (sound.within (decoder.rollForRepair_within repair.windowBase
      (repair.windowEnd - repair.windowBase))).within admitted.retained
    have storedSound := roomSound.register admitted.sources admitted.repairs genuine narrow
    obtain ⟨settled, faithful⟩ := settle_sound short storedSound
      (fun other retained _ => admitted.tracked sound.narrow nonempty narrow other retained)
    rw [result]
    refine ⟨settled, fun event member => ?_⟩
    rcases List.mem_append.mp member with rolled | later
    · exact rollForRepair_faithful truth decoder _ _ event rolled
    · exact faithful event later

end FecDecoder

namespace WebDecoder

theorem makeRoom_faithful (truth : UInt32 → Payload) (decoder : FecDecoder) (added : Added)
    (protectedSources : List UInt32) :
    ∀ event ∈ (makeRoom decoder added protectedSources).2, event.Faithful truth := by
  refine makeRoom_invariant added protectedSources
    (fun events _ => ∀ event ∈ events, event.Faithful truth) (fun _ _ faithful _ => faithful) ?_
    decoder (by simp)
  intro events current newest seq faithful _ _ event member
  rcases List.mem_append.mp member with old | new
  · exact faithful event old
  · exact current.evictionEvents_faithful truth seq event new

theorem settle_sound {truth : UInt32 → Payload} {decoder : FecDecoder}
    (short : ∀ seq, (truth seq).length < 65536) (sound : decoder.Sound truth)
    (coupled : ∀ repair ∈ decoder.repairs, decoder.Coupled repair) :
    (settle decoder).1.Sound truth ∧ ∀ event ∈ (settle decoder).2, event.Faithful truth := by
  obtain ⟨sources, repairs, spans⟩ := advanceContiguous_keeps decoder.tryRecover.1
  refine ⟨(FecDecoder.tryRecover_keeps_sound short sound coupled).within
    ⟨fun seq state found => ?_, fun repair member => ?_⟩, fun event member => ?_⟩
  · rw [← sources]
    exact found
  · rw [← repairs]
    exact member
  · rcases List.mem_append.mp member with recovered | advanced
    · exact FecDecoder.recoveredEvents_faithful
        (FecDecoder.tryRecover_sound short sound.known sound.genuine coupled).1 event recovered
    · obtain ⟨first, last, rfl⟩ := spans event advanced
      trivial

-- The decoder in which room has been made for an arriving source.
def roomForSource (decoder : FecDecoder) (seq : UInt32) (payload : Payload) : FecDecoder :=
  (makeRoom (decoder.noteNewest seq) (decoder.sourceDeltas seq payload) [seq]).1

-- The decoder in which room has been made for a repair.
def roomForRepair (decoder : FecDecoder) (repair : ReceivedRepair) : FecDecoder :=
  (makeRoom (noteWindow decoder repair) (repairDeltas decoder repair) repair.seqs).1

-- Every older equation that has an unknown, in `room` or in the window of the new repair, speaks
-- only about tracked seqs and that window.
def CoupledBeside (room : FecDecoder) (repair : ReceivedRepair) : Prop :=
  ∀ older ∈ room.repairs,
    (∃ seq ∈ older.seqs, room.sources.get? seq = some .missing ∨
      room.sources.get? seq = none ∧ seq ∈ repair.seqs) →
    ∀ seq ∈ older.seqs, room.sources.get? seq ≠ none ∨ seq ∈ repair.seqs

instance (room : FecDecoder) (repair : ReceivedRepair) : Decidable (CoupledBeside room repair) :=
  inferInstanceAs (Decidable (∀ older ∈ room.repairs, _ → _))

theorem pushSource_sound {truth : UInt32 → Payload} {decoder : FecDecoder} {seq : UInt32}
    {payload : Payload} (short : ∀ seq, (truth seq).length < 65536) (sound : decoder.Sound truth)
    (right : payload = truth seq)
    (coupled : decoder.Stores seq payload → (roomForSource decoder seq payload).CoupledBut seq) :
    (pushSource decoder seq payload).1.Sound truth ∧
      ∀ event ∈ (pushSource decoder seq payload).2, event.Faithful truth := by
  obtain result | result | ⟨stores, -, result⟩ := pushSource_cases decoder seq payload
  · rw [result]
    exact ⟨sound, by simpa [DecoderEvent.Faithful] using right⟩
  · rw [result]
    exact ⟨sound, by simp⟩
  · have noted : (decoder.noteNewest seq).Sound truth :=
      sound.within ⟨by simp, by simp⟩
    have sources : (storeSource decoder seq payload).1.sources =
        (roomForSource decoder seq payload).sources.insert seq (.received payload) := by
      simp [storeSource, roomForSource]
    have repairs : (storeSource decoder seq payload).1.repairs =
        (roomForSource decoder seq payload).repairs := by
      simp [storeSource, roomForSource]
    have stored := FecDecoder.insert_received_sound (noted.within (makeRoom_within _ _ _)) right
      sources repairs
    obtain ⟨settled, faithful⟩ := settle_sound short stored
      (FecDecoder.coupled_of_insert sources repairs (coupled stores))
    rw [result]
    refine ⟨settled, fun event member => ?_⟩
    rcases List.mem_append.mp member with first | later
    · rcases List.mem_append.mp first with evicted | arrived
      · exact makeRoom_faithful truth _ _ _ event evicted
      · rw [List.mem_singleton.mp arrived]
        exact right
    · exact faithful event later

theorem pushRepair_sound {truth : UInt32 → Payload} {decoder : FecDecoder}
    {repair : ReceivedRepair} (short : ∀ seq, (truth seq).length < 65536)
    (sound : decoder.Sound truth) (genuine : repair.Genuine truth)
    (coupled : acceptsRepair decoder repair → CoupledBeside (roomForRepair decoder repair) repair) :
    (pushRepair decoder repair).1.Sound truth ∧
      ∀ event ∈ (pushRepair decoder repair).2, event.Faithful truth := by
  obtain result | ⟨accepted, result⟩ := pushRepair_cases decoder repair
  · rw [result]
    exact ⟨sound, by simp⟩
  · have narrow : repair.windowEnd - repair.windowBase ≤ 128 := by
      simp only [acceptsRepair, Bool.and_eq_true, Bool.not_eq_true', Bool.or_eq_false_iff,
        decide_eq_false_iff_not] at accepted
      simpa using accepted.1.1.1.2
    have noted : (noteWindow decoder repair).Sound truth := sound.within ⟨by simp, by simp⟩
    have room : (roomForRepair decoder repair).Sound truth :=
      noted.within (makeRoom_within _ _ _)
    have sources : (storeRepair decoder repair).1.sources =
        FecDecoder.registerMissing (roomForRepair decoder repair).sources repair.seqs := by
      simp [storeRepair, roomForRepair]
    have repairs : (storeRepair decoder repair).1.repairs =
        (roomForRepair decoder repair).repairs ++ [repair] := by
      simp [storeRepair, roomForRepair]
    have stored := room.register sources repairs genuine narrow
    have together (older : ReceivedRepair)
        (retained : older ∈ (storeRepair decoder repair).1.repairs) :
        (storeRepair decoder repair).1.Coupled older := by
      rintro ⟨unknown, inside, missing⟩ seq member
      rw [sources, FecDecoder.get?_registerMissing] at missing ⊢
      rw [repairs, List.mem_append, List.mem_singleton] at retained
      have tracked : (roomForRepair decoder repair).sources.get? seq ≠ none ∨ seq ∈ repair.seqs := by
        rcases retained with old | rfl
        · refine coupled accepted older old ⟨unknown, inside, ?_⟩ seq member
          split_ifs at missing with fresh
          · exact Or.inr fresh
          · exact Or.inl missing
        · exact Or.inr member
      rcases tracked with held | fresh
      · simp [held]
      · split_ifs with absent
        · simp
        · exact fun none => absent ⟨none, fresh⟩
    obtain ⟨settled, faithful⟩ := settle_sound short stored together
    rw [result]
    dsimp only
    refine ⟨settled, fun event member => ?_⟩
    rcases List.mem_append.mp member with first | later
    · exact makeRoom_faithful truth _ _ _ event first
    · exact faithful event later

end WebDecoder

-- The symbol is one an encoder of the true stream emits.
def Symbol.Genuine (truth : UInt32 → Payload) : Symbol → Prop
  | .source seq payload => payload = truth seq
  | .repair repairSeq windowBase windowEnd payload =>
      windowEnd - windowBase ≠ 0 ∧
        ReceivedRepair.Genuine truth ⟨repairSeq, windowBase, windowEnd, payload⟩

theorem Emission.Faithful.genuine {stream : Nat → Payload} {emission : Emission} {low : Nat}
    (faithful : emission.Faithful stream) (after : low ≤ emission.first)
    (bound : emission.limit ≤ low + 2 ^ 31) :
    emission.symbol.Genuine (truthAt stream low) := by
  obtain ⟨symbol, first, limit⟩ := emission
  simp only at after bound
  cases symbol with
  | source seq payload =>
    simp only [Emission.Faithful] at faithful
    obtain ⟨rfl, rfl, rfl⟩ := faithful
    have index := indexAt_ofNat low first after (by omega)
    simp only [Symbol.Genuine, truthAt, index]
  | repair repairSeq windowBase windowEnd payload =>
    simp only [Emission.Faithful] at faithful
    obtain ⟨nonempty, narrow, rfl, rfl, rfl⟩ := faithful
    refine ⟨fun zero => ?_, ?_⟩
    · have values := congrArg UInt32.toNat zero
      simp only [UInt32.toNat_sub, UInt32.toNat_ofNat', UInt32.toNat_zero] at values
      omega
    · rw [ReceivedRepair.Genuine, ReceivedRepair.seqs,
        truthAt_window stream low first limit after nonempty.le bound]

def Report.Faithful (stream : Nat → Payload) (report : Report) : Prop :=
  report.event.Faithful (truthAt stream report.low)

/-- Moving the window past an index the decoder does not mention changes nothing it holds. -/
theorem FecDecoder.Sound.retire {stream : Nat → Payload} {decoder : FecDecoder} {low : Nat}
    (sound : decoder.Sound (truthAt stream low))
    (unmentioned : ¬ decoder.Mentions (UInt32.ofNat low)) :
    decoder.Sound (truthAt stream (low + 1)) := by
  rw [Mentions, not_or, not_not] at unmentioned
  have same (seq : UInt32) (other : seq ≠ UInt32.ofNat low) :
      truthAt stream (low + 1) seq = truthAt stream low seq := by
    rw [truthAt, truthAt, indexAt_succ low seq other]
  refine ⟨?_, ?_, sound.narrow⟩
  · intro seq state payload found held
    rw [same seq]
    · exact sound.known seq state payload found held
    · rintro rfl
      simp [unmentioned.1] at found
  · intro repair retained
    rw [ReceivedRepair.Genuine, sound.genuine repair retained]
    congr 1
    refine List.map_congr_left (fun seq member => ?_)
    rw [same seq]
    rintro rfl
    exact unmentioned.2 ⟨repair, retained, member⟩

section Run

variable (push : FecDecoder → Symbol → FecDecoder × List DecoderEvent)
  (guard : FecDecoder → Symbol → Prop)

-- A guard on the symbols handed over, in the state they arrive at.
def Flight.Guarded (flight : Flight) : Delivery → Prop
  | .deliver emission => guard flight.decoder emission.symbol
  | .retire => True

instance [∀ decoder symbol, Decidable (guard decoder symbol)] (flight : Flight) :
    (delivery : Delivery) → Decidable (flight.Guarded guard delivery)
  | .deliver emission => inferInstanceAs (Decidable (guard flight.decoder emission.symbol))
  | .retire => .isTrue trivial

variable (sound : ∀ truth decoder symbol, (∀ seq, (truth seq).length < 65536) →
    FecDecoder.Sound truth decoder → symbol.Genuine truth → guard decoder symbol →
    (push decoder symbol).1.Sound truth ∧ ∀ event ∈ (push decoder symbol).2, event.Faithful truth)
  (stream : Nat → Payload) (config : FecConfig) (calls : List EncoderCall)
  (maxSymbols : UInt16) (maxBytes : UInt32) (deliveries : List Delivery)
  (short : ∀ index, (stream index).length ≤ 65520)
  (inFlight : Runs.Along (Flight.step push)
    (fun _ => InFlight (emissions stream config calls)) [] ⟨.new maxSymbols maxBytes, 0⟩ deliveries)
  (guarded : Runs.Along (Flight.step push) (fun _ => Flight.Guarded guard) []
    ⟨.new maxSymbols maxBytes, 0⟩ deliveries)

include sound short inFlight guarded

/-- Step lemma to run lemma: a decoder that keeps its state true holds what is true of the window
in flight, and reports only true payloads. -/
theorem run_sound :
    (Runs.run (Flight.step push) ⟨.new maxSymbols maxBytes, 0⟩ deliveries).1.decoder.Sound
      (truthAt stream
        (Runs.run (Flight.step push) ⟨.new maxSymbols maxBytes, 0⟩ deliveries).1.low) ∧
    ∀ report ∈ (Runs.run (Flight.step push) ⟨.new maxSymbols maxBytes, 0⟩ deliveries).2,
      report.Faithful stream := by
  have narrow (low : Nat) (seq : UInt32) : (truthAt stream low seq).length < 65536 := by
    have := short (indexAt low seq)
    rw [truthAt]
    omega
  have initial : (FecDecoder.new maxSymbols maxBytes).Sound (truthAt stream 0) :=
    ⟨by simp [FecDecoder.Known], by simp, by simp⟩
  have kept := Runs.run_invariant (Flight.step push) _
    (fun seen flight => flight.decoder.Sound (truthAt stream flight.low) ∧
      ∀ report ∈ seen, report.Faithful stream) ?_ [] ⟨.new maxSymbols maxBytes, 0⟩ deliveries
      ⟨initial, by simp⟩ (inFlight.and guarded)
  · simpa using kept
  · rintro seen flight delivery ⟨state, reports⟩ ⟨possible, allowed⟩
    cases delivery with
    | deliver emission =>
      have genuine := (emissions_faithful stream config calls emission possible.1).genuine
        possible.2.1 possible.2.2
      obtain ⟨next, events⟩ := sound _ _ _ (narrow flight.low) state genuine allowed
      refine ⟨next, fun report member => ?_⟩
      rcases List.mem_append.mp member with old | new
      · exact reports report old
      · obtain ⟨event, emitted, rfl⟩ := List.mem_map.mp new
        exact events event emitted
    | retire => exact ⟨state.retire possible, by simpa [Flight.step] using reports⟩

theorem run_faithful :
    ∀ report ∈ (Runs.run (Flight.step push) ⟨.new maxSymbols maxBytes, 0⟩ deliveries).2,
      report.Faithful stream :=
  (run_sound push guard sound stream config calls maxSymbols maxBytes deliveries short inFlight
    guarded).2

end Run

instance (truth : UInt32 → Payload) : (event : DecoderEvent) → Decidable (event.Faithful truth)
  | .recovered _ _ _ => inferInstanceAs (Decidable (_ = _))
  | .lossSpan _ _ | .evicted _ _ => .isTrue trivial

instance (stream : Nat → Payload) (report : Report) : Decidable (report.Faithful stream) :=
  inferInstanceAs (Decidable (report.event.Faithful _))

def oneByteStream (index : Nat) : Payload := if index = 0 then [1] else []

theorem oneByteStream_short (index : Nat) : (oneByteStream index).length ≤ 65520 := by
  unfold oneByteStream
  split_ifs <;> simp

-- Sources 0, 1, 2, then the repair over them, then source 3.
def oneByteEmissions : List Emission :=
  emissions oneByteStream ⟨1, 3, 128, 1000000⟩ (List.replicate 4 .pushSource)

-- The emissions at the given positions, in this order.
def handOver (positions : List Nat) : List Delivery :=
  positions.filterMap (fun position => oneByteEmissions[position]?.map .deliver)

-- The native decoder starts elimination for an arriving source only from coupled equations.
def NativeCoupled (decoder : FecDecoder) : Symbol → Prop
  | .source seq payload => decoder.Stores seq payload →
      (decoder.makeRoom (decoder.sourceDeltas seq payload)).1.CoupledBut seq
  | .repair _ _ _ _ => True

instance (decoder : FecDecoder) : (symbol : Symbol) → Decidable (NativeCoupled decoder symbol)
  | .source _ _ => inferInstanceAs (Decidable (_ → _))
  | .repair _ _ _ _ => .isTrue trivial

/-- For every loss, order and repetition of the emissions, the native decoder reports the payloads
the encoder was given, if no equation outlives a source it mentions. -/
theorem native_recovers_faithfully (stream : Nat → Payload) (config : FecConfig)
    (calls : List EncoderCall) (maxSymbols : UInt16) (maxBytes : UInt32)
    (deliveries : List Delivery) (short : ∀ index, (stream index).length ≤ 65520)
    (inFlight : Runs.Along (Flight.step FecDecoder.pushSymbol)
      (fun _ => InFlight (emissions stream config calls)) [] ⟨.new maxSymbols maxBytes, 0⟩ deliveries)
    (coupled : Runs.Along (Flight.step FecDecoder.pushSymbol)
      (fun _ => Flight.Guarded NativeCoupled) [] ⟨.new maxSymbols maxBytes, 0⟩ deliveries) :
    ∀ report ∈ (Runs.run (Flight.step FecDecoder.pushSymbol) ⟨.new maxSymbols maxBytes, 0⟩
      deliveries).2, report.Faithful stream := by
  refine run_faithful _ NativeCoupled ?_ stream config calls maxSymbols maxBytes deliveries short
    inFlight coupled
  intro truth decoder symbol bound sound genuine guarded
  cases symbol with
  | source seq payload => exact FecDecoder.pushSource_sound bound sound genuine guarded
  | repair repairSeq windowBase windowEnd payload =>
    exact FecDecoder.pushRepair_sound bound sound genuine.2 genuine.1

/-- Source 0 is lost and recovered from the repair. -/
theorem native_recovers_lost_source :
    (∃ report ∈ (Runs.run (Flight.step FecDecoder.pushSymbol) ⟨.new 128 16777216, 0⟩
      (handOver [1, 2, 3])).2, report.event = .recovered 0 [1] true) ∧
    ∀ report ∈ (Runs.run (Flight.step FecDecoder.pushSymbol) ⟨.new 128 16777216, 0⟩
      (handOver [1, 2, 3])).2, report.Faithful oneByteStream :=
  ⟨by decide +kernel,
    native_recovers_faithfully oneByteStream ⟨1, 3, 128, 1000000⟩ (List.replicate 4 .pushSource)
      128 16777216 (handOver [1, 2, 3]) oneByteStream_short (by decide +kernel) (by decide +kernel)⟩

/-- Sources 0 and 2 are lost; the gap at 0 is abandoned, so source 3 solves the repair for 2 as if
payload 0 were empty. -/
theorem native_misrecovers :
    (∀ index, (oneByteStream index).length ≤ 65520) ∧
    Runs.Along (Flight.step FecDecoder.pushSymbol) (fun _ => InFlight oneByteEmissions) []
      ⟨.new 128 16777216, 0⟩ (handOver [1, 3, 4]) ∧
    ∃ report ∈ (Runs.run (Flight.step FecDecoder.pushSymbol) ⟨.new 128 16777216, 0⟩
      (handOver [1, 3, 4])).2, ¬ report.Faithful oneByteStream :=
  ⟨oneByteStream_short, by decide +kernel, by decide +kernel⟩

-- The browser decoder starts elimination only from coupled equations.
def WebCoupled (decoder : FecDecoder) : Symbol → Prop
  | .source seq payload => decoder.Stores seq payload →
      (WebDecoder.roomForSource decoder seq payload).CoupledBut seq
  | .repair repairSeq windowBase windowEnd payload =>
      WebDecoder.acceptsRepair decoder ⟨repairSeq, windowBase, windowEnd, payload⟩ →
        WebDecoder.CoupledBeside
          (WebDecoder.roomForRepair decoder ⟨repairSeq, windowBase, windowEnd, payload⟩)
          ⟨repairSeq, windowBase, windowEnd, payload⟩

instance (decoder : FecDecoder) : (symbol : Symbol) → Decidable (WebCoupled decoder symbol)
  | .source _ _ => inferInstanceAs (Decidable (_ → _))
  | .repair _ _ _ _ => inferInstanceAs (Decidable (_ → _))

theorem web_recovers_faithfully (stream : Nat → Payload) (config : FecConfig)
    (calls : List EncoderCall) (maxSymbols : UInt16) (maxBytes : UInt32)
    (deliveries : List Delivery) (short : ∀ index, (stream index).length ≤ 65520)
    (inFlight : Runs.Along (Flight.step WebDecoder.pushSymbol)
      (fun _ => InFlight (emissions stream config calls)) [] ⟨.new maxSymbols maxBytes, 0⟩ deliveries)
    (coupled : Runs.Along (Flight.step WebDecoder.pushSymbol)
      (fun _ => Flight.Guarded WebCoupled) [] ⟨.new maxSymbols maxBytes, 0⟩ deliveries) :
    ∀ report ∈ (Runs.run (Flight.step WebDecoder.pushSymbol) ⟨.new maxSymbols maxBytes, 0⟩
      deliveries).2, report.Faithful stream := by
  refine run_faithful _ WebCoupled ?_ stream config calls maxSymbols maxBytes deliveries short
    inFlight coupled
  intro truth decoder symbol bound sound genuine guarded
  cases symbol with
  | source seq payload => exact WebDecoder.pushSource_sound bound sound genuine guarded
  | repair repairSeq windowBase windowEnd payload =>
    exact WebDecoder.pushRepair_sound bound sound genuine.2 guarded

theorem web_recovers_lost_source :
    (∃ report ∈ (Runs.run (Flight.step WebDecoder.pushSymbol) ⟨.new 128 16777216, 0⟩
      (handOver [1, 2, 3])).2, report.event = .recovered 0 [1] true) ∧
    ∀ report ∈ (Runs.run (Flight.step WebDecoder.pushSymbol) ⟨.new 128 16777216, 0⟩
      (handOver [1, 2, 3])).2, report.Faithful oneByteStream :=
  ⟨by decide +kernel,
    web_recovers_faithfully oneByteStream ⟨1, 3, 128, 1000000⟩ (List.replicate 4 .pushSource)
      128 16777216 (handOver [1, 2, 3]) oneByteStream_short (by decide +kernel) (by decide +kernel)⟩

/-- With room for three sources, source 3 evicts source 0 while the repair over it stays; when
source 1 arrives late the repair is solved for 2 as if payload 0 were empty. -/
theorem web_misrecovers :
    (∀ index, (oneByteStream index).length ≤ 65520) ∧
    Runs.Along (Flight.step WebDecoder.pushSymbol) (fun _ => InFlight oneByteEmissions) []
      ⟨.new 3 16777216, 0⟩ (handOver [0, 3, 4, 1]) ∧
    ∃ report ∈ (Runs.run (Flight.step WebDecoder.pushSymbol) ⟨.new 3 16777216, 0⟩
      (handOver [0, 3, 4, 1])).2, ¬ report.Faithful oneByteStream :=
  ⟨oneByteStream_short, by decide +kernel, by decide +kernel⟩

end BetterParsec
