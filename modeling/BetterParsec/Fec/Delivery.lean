import BetterParsec.Fec.Channel
import BetterParsec.Fec.Equations
import BetterParsec.Fec.NativeDecoder

set_option autoImplicit false
set_option linter.all false

/-!
# At-most-once delivery

The decoder recognises a duplicate by the entry it still holds. A seq is
delivered at most once in every run in which delivered seqs are only met again
while their entry is held.
-/

namespace BetterParsec

def DecoderEvent.delivered : DecoderEvent → Option UInt32
  | .recovered seq _ _ => some seq
  | .lossSpan _ _ | .evicted _ _ => none

def delivered (events : List DecoderEvent) : List UInt32 :=
  events.filterMap DecoderEvent.delivered

@[simp] theorem delivered_append (first second : List DecoderEvent) :
    delivered (first ++ second) = delivered first ++ delivered second := by
  simp [delivered]

@[simp] theorem delivered_recoveredEvents (recovered : List (UInt32 × Payload)) :
    delivered (FecDecoder.recoveredEvents recovered) = recovered.map Prod.fst := by
  induction recovered with
  | nil => rfl
  | cons head rest ih =>
    simpa [delivered, FecDecoder.recoveredEvents, DecoderEvent.delivered] using ih

namespace FecDecoder

-- Nothing was delivered twice, and no delivered seq counts as unknown.
structure Once (seen : List DecoderEvent) (decoder : FecDecoder) : Prop where
  distinct : (delivered seen).Nodup
  unknown : ∀ seq, decoder.sources.get? seq = some .missing → seq ∉ delivered seen

theorem delivered_evictionEvents (decoder : FecDecoder) (seq : UInt32) :
    delivered (decoder.evictionEvents seq) = [] := by
  unfold evictionEvents
  split_ifs <;> rfl

theorem delivered_makeRoom (decoder : FecDecoder) (added : Added) :
    delivered (decoder.makeRoom added).2 = [] := by
  refine makeRoom_invariant added (fun events _ => delivered events = [])
    (fun _ _ held _ => held) ?_ decoder rfl
  intro events current newest seq held _ _
  rw [delivered_append, held, delivered_evictionEvents]
  rfl

theorem delivered_rollForRepair (decoder : FecDecoder) (windowBase windowLen : UInt32) :
    delivered (decoder.rollForRepair windowBase windowLen).2 = [] := by
  unfold rollForRepair
  split_ifs
  · rfl
  · dsimp only
    generalize decoder.sources.keys.filter _ = obsolete
    induction obsolete with
    | nil => rfl
    | cons head rest ih =>
      rw [List.flatMap_cons, delivered_append, delivered_evictionEvents, ih]
      rfl

theorem delivered_advanceContiguous (decoder : FecDecoder) :
    delivered decoder.advanceContiguous.2 = [] := by
  refine advanceContiguous_invariant (fun events _ => delivered events = [])
    (fun _ _ _ _ held _ _ => held) ?_ (fun _ _ held => held) decoder rfl
  intro events current scan held _
  rw [delivered_append, held]
  rfl

theorem settle_once {seen : List DecoderEvent} {decoder : FecDecoder} (once : decoder.Once seen) :
    decoder.settle.1.Once (seen ++ decoder.settle.2) := by
  have recovers := decoder.tryRecover_recovers
  have fresh : delivered (seen ++ decoder.settle.2) =
      delivered seen ++ decoder.tryRecover.2.map Prod.fst := by
    have events : decoder.settle.2 = recoveredEvents decoder.tryRecover.2 ++
        decoder.tryRecover.1.advanceContiguous.2 := rfl
    rw [events, delivered_append, delivered_append, delivered_recoveredEvents,
      delivered_advanceContiguous, List.append_nil]
  refine ⟨?_, fun seq missing member => ?_⟩
  · rw [fresh]
    refine once.distinct.append recovers.distinct (fun seq old new => ?_)
    obtain ⟨pair, solved, rfl⟩ := List.mem_map.mp new
    exact once.unknown pair.1 (recovers.filled pair solved).1 old
  · have solvedMissing := decoder.tryRecover.1.advanceContiguous_within.sources seq _ missing
    rw [fresh, List.mem_append] at member
    rcases member with old | new
    · rcases recovers.known solvedMissing with before | ⟨payload, solved⟩
      · exact once.unknown seq before old
      · simp [(recovers.filled _ solved).2] at solvedMissing
    · obtain ⟨pair, solved, rfl⟩ := List.mem_map.mp new
      simp [(recovers.filled pair solved).2] at solvedMissing

-- A delivered seq is met again only while its entry is held: by a late or repeated source, or in
-- the window of an admitted repair. A source too large to be stored is not awaited as unknown.
def Remembers (seen : List DecoderEvent) (decoder : FecDecoder) : Symbol → Prop
  | .source seq payload =>
      (seq ∈ delivered seen →
        payload.length + 8 ≤ decoder.maxBytes ∧ decoder.sources.get? seq ≠ none) ∧
      (decoder.maxBytes < payload.length + 8 → decoder.sources.get? seq ≠ some .missing)
  | .repair repairSeq windowBase windowEnd payload =>
      decoder.storeRepair ⟨repairSeq, windowBase, windowEnd, payload⟩ ≠ none →
        ∀ seq ∈ windowSeqs windowBase windowEnd, seq ∈ delivered seen →
          decoder.sources.get? seq ≠ none

/-- Delivering a seq that was not delivered before, and that is not left unknown. -/
theorem Once.deliver {seen more : List DecoderEvent} {before after : FecDecoder} {seq : UInt32}
    (once : before.Once seen) (only : delivered more = [seq]) (fresh : seq ∉ delivered seen)
    (missing : ∀ other, after.sources.get? other = some .missing →
      other ≠ seq ∧ before.sources.get? other = some .missing) :
    after.Once (seen ++ more) := by
  refine ⟨?_, fun other unknown member => ?_⟩
  · rw [delivered_append, only]
    exact once.distinct.append (by simp) (by simpa using fresh)
  · rw [delivered_append, only, List.mem_append, List.mem_singleton] at member
    obtain ⟨different, held⟩ := missing other unknown
    rcases member with old | same
    · exact once.unknown other held old
    · exact different same

theorem pushSource_once {seen : List DecoderEvent} {decoder : FecDecoder} {seq : UInt32}
    {payload : Payload} (once : decoder.Once seen)
    (remembers : decoder.Remembers seen (.source seq payload)) :
    (decoder.pushSource seq payload).1.Once (seen ++ (decoder.pushSource seq payload).2) := by
  obtain ⟨large, result⟩ | ⟨-, result⟩ | ⟨stores, result⟩ := decoder.pushSource_cases seq payload
  · -- An oversize source is passed on without an entry.
    have fresh : seq ∉ delivered seen := fun member => by
      have := (remembers.1 member).1
      omega
    rw [result]
    refine once.deliver rfl fresh (fun other missing => ⟨?_, missing⟩)
    rintro rfl
    exact remembers.2 large missing
  · rw [result]
    exact ⟨by simpa using once.distinct, by simpa using once.unknown⟩
  · have fresh : seq ∉ delivered seen := by
      intro member
      rcases stores.2 with absent | missing
      · exact (remembers.1 member).2 absent
      · exact once.unknown seq missing member
    have stored : (decoder.storeSource seq payload).1.Once
        (seen ++ (decoder.storeSource seq payload).2) := by
      refine once.deliver ?_ fresh (fun other missing => ?_)
      · have events : (decoder.storeSource seq payload).2 =
            (decoder.makeRoom (decoder.sourceDeltas seq payload)).2 ++
              [DecoderEvent.recovered seq payload false] := rfl
        rw [events, delivered_append, delivered_makeRoom]
        rfl
      · simp only [storeSource, noteNewest_sources, noteOpenSpanAtFrontier_sources,
          OrdMap.get?_insert] at missing
        split_ifs at missing with same
        · simp at missing
        · exact ⟨same, (decoder.makeRoom_within _).sources other _ missing⟩
    rw [result, ← List.append_assoc]
    exact settle_once stored

theorem pushRepair_once {seen : List DecoderEvent} {decoder : FecDecoder} {repairSeq : UInt16}
    {windowBase windowEnd : UInt32} {payload : Payload} (once : decoder.Once seen)
    (remembers : decoder.Remembers seen (.repair repairSeq windowBase windowEnd payload)) :
    (decoder.pushRepair ⟨repairSeq, windowBase, windowEnd, payload⟩).1.Once
      (seen ++ (decoder.pushRepair ⟨repairSeq, windowBase, windowEnd, payload⟩).2) := by
  obtain result | ⟨room, stored, -, admitted, result⟩ :=
    decoder.pushRepair_cases ⟨repairSeq, windowBase, windowEnd, payload⟩
  · rw [result]
    exact ⟨by simpa using once.distinct, by simpa using once.unknown⟩
  · rw [result, ← List.append_assoc]
    have same : delivered (seen ++
        (decoder.rollForRepair windowBase (windowEnd - windowBase)).2) = delivered seen := by
      rw [delivered_append, delivered_rollForRepair, List.append_nil]
    refine settle_once ⟨by rw [same]; exact once.distinct, fun seq missing member => ?_⟩
    rw [same] at member
    rw [admitted.sources, get?_registerMissing] at missing
    split_ifs at missing with fresh
    · -- A fresh entry of the window that the roll did not drop was not tracked before.
      have tracked := remembers admitted.planned seq fresh.2 member
      obtain ⟨state, found⟩ := Option.ne_none_iff_exists'.mp tracked
      have inside : seqInWindow seq windowBase (windowEnd - windowBase) = true := by
        simpa [seqInWindow] using (mem_windowSeqs _ _ _).mp fresh.2
      have kept : (decoder.rollForRepair windowBase
          (windowEnd - windowBase)).1.sources.get? seq = some state := by
        unfold rollForRepair
        split_ifs
        · exact found
        · simp [OrdMap.get?_filter, found, inside]
      rw [admitted.roomSources, kept] at fresh
      simp at fresh
    · exact once.unknown seq ((decoder.rollForRepair_within _ _).sources seq _
        (admitted.retained.sources seq _ missing)) member

/-- In every run that remembers what it delivered, each seq is delivered at most once. -/
theorem run_delivers_once (maxSymbols : UInt16) (maxBytes : UInt32) (symbols : List Symbol)
    (remembers : Runs.Along pushSymbol Remembers [] (.new maxSymbols maxBytes) symbols) :
    (delivered (Runs.run pushSymbol (.new maxSymbols maxBytes) symbols).2).Nodup := by
  have kept := Runs.run_invariant pushSymbol Remembers (fun seen decoder => decoder.Once seen) ?_ []
    (.new maxSymbols maxBytes) symbols ⟨List.nodup_nil, by simp⟩ remembers
  · simpa using kept.distinct
  · intro seen decoder symbol once guarded
    cases symbol with
    | source seq payload => exact pushSource_once once guarded
    | repair repairSeq windowBase windowEnd payload => exact pushRepair_once once guarded

instance (seen : List DecoderEvent) (decoder : FecDecoder) :
    (symbol : Symbol) → Decidable (decoder.Remembers seen symbol)
  | .source _ _ => inferInstanceAs (Decidable (_ ∧ _))
  | .repair _ windowBase windowEnd _ =>
      have := List.decidableBAll (fun seq => seq ∈ delivered seen → decoder.sources.get? seq ≠ none)
        (windowSeqs windowBase windowEnd)
      inferInstanceAs (Decidable (_ → _))

-- An encoder that sends a repair over everything so far with each source.
def pairedEmissions : List Symbol :=
  (emissions (fun _ => []) ⟨1, 1, 128, 1000000⟩ [.pushSource, .pushSource]).map Emission.symbol

-- The symbols at the given positions, in this order.
def arrivals (positions : List Nat) : List Symbol :=
  positions.filterMap (fun position => pairedEmissions[position]?)

/-- Source 0 arrives twice, and source 1 late, after it was recovered. -/
theorem run_delivers_once_late :
    delivered (Runs.run pushSymbol (.new 128 16777216) (arrivals [0, 0, 3, 2])).2 = [0, 1] ∧
    (delivered (Runs.run pushSymbol (.new 128 16777216) (arrivals [0, 0, 3, 2])).2).Nodup :=
  ⟨by decide +kernel, run_delivers_once 128 16777216 (arrivals [0, 0, 3, 2]) (by decide +kernel)⟩

/-- Each symbol arrives once; the first repair rolls source 1 out of the window, and the second
repair brings it back. -/
theorem run_delivers_twice :
    ¬ (delivered (Runs.run pushSymbol (.new 128 16777216) (arrivals [0, 2, 1, 3])).2).Nodup := by
  decide +kernel

-- Nothing is tracked as missing, as when no repair has been admitted.
def NoneMissing (decoder : FecDecoder) : Prop := ∀ seq, decoder.sources.get? seq ≠ some .missing

theorem NoneMissing.within {before after : FecDecoder} (complete : before.NoneMissing)
    (within : after.Within before) : after.NoneMissing :=
  fun seq missing => complete seq (within.sources seq .missing missing)

theorem makeRoom_silent {decoder : FecDecoder} (complete : decoder.NoneMissing) (added : Added) :
    (decoder.makeRoom added).2 = [] := by
  refine (makeRoom_invariant added (fun events current => current.Within decoder ∧ events = [])
    ?_ ?_ decoder ⟨.refl decoder, rfl⟩).2
  · intro events current held _
    exact ⟨current.evictOldestRepair_within.trans held.1, held.2⟩
  · intro events current newest seq held _ _
    have none : current.evictionEvents seq = [] := by
      rw [evictionEvents, if_neg ((complete.within held.1) seq)]
    exact ⟨(current.erase_within seq).trans held.1, by rw [held.2, none]; rfl⟩

theorem settle_silent {decoder : FecDecoder} (complete : decoder.NoneMissing) :
    decoder.settle.2 = [] ∧ decoder.settle.1.Within decoder := by
  have recovers := decoder.tryRecover_recovers
  have nothing : decoder.tryRecover.2 = [] := by
    apply List.eq_nil_iff_forall_not_mem.mpr
    intro solved member
    exact complete solved.1 (recovers.filled solved member).1
  have same : decoder.tryRecover.1.Within decoder := by
    refine ⟨fun seq state found => ?_, by simp [recovers.repairs]⟩
    rwa [recovers.kept seq (by simp [nothing])] at found
  have advanced := advanceContiguous_invariant
    (fun events current => current.NoneMissing ∧ events = []) ?_ ?_ ?_ decoder.tryRecover.1
    ⟨complete.within same, rfl⟩
  · refine ⟨?_, decoder.tryRecover.1.advanceContiguous_within.trans same⟩
    change recoveredEvents decoder.tryRecover.2 ++ decoder.tryRecover.1.advanceContiguous.2 = []
    rw [nothing, advanced.2]
    rfl
  · intro events current state viaFec held found known
    exact ⟨by simpa [NoneMissing, passFrontier] using held.1, held.2⟩
  · intro events current scan held gap
    exact absurd gap.starts (held.1 current.frontier)
  · intro events current held
    exact ⟨by simpa [NoneMissing] using held.1, held.2⟩

/-- Such a decoder hands every source on, once while its entry is held. -/
theorem pushSource_passes {decoder : FecDecoder} (complete : decoder.NoneMissing) (seq : UInt32)
    (payload : Payload) :
    (decoder.pushSource seq payload).1.NoneMissing ∧
      (decoder.sources.get? seq ≠ none ∧ (decoder.pushSource seq payload).2 = [] ∨
        (decoder.pushSource seq payload).2 = [.recovered seq payload false]) ∧
      ∀ other, (decoder.pushSource seq payload).1.sources.get? other ≠ none →
        other = seq ∨ decoder.sources.get? other ≠ none := by
  obtain ⟨-, result⟩ | ⟨⟨state, found, -⟩, result⟩ | ⟨-, result⟩ :=
    decoder.pushSource_cases seq payload
  · rw [result]
    exact ⟨complete, Or.inr rfl, fun other held => Or.inr held⟩
  · rw [result]
    exact ⟨complete, Or.inl ⟨by simp [found], rfl⟩, fun other held => Or.inr held⟩
  · have room := decoder.makeRoom_within (decoder.sourceDeltas seq payload)
    have sources : (decoder.storeSource seq payload).1.sources =
        (decoder.makeRoom (decoder.sourceDeltas seq payload)).1.sources.insert seq
          (.received payload) := by simp [storeSource]
    have stored : (decoder.storeSource seq payload).1.NoneMissing := by
      intro other missing
      rw [sources, OrdMap.get?_insert] at missing
      split_ifs at missing
      · simp at missing
      · exact (complete.within room) other missing
    obtain ⟨silent, settled⟩ := settle_silent stored
    rw [result]
    refine ⟨stored.within settled, Or.inr ?_, fun other held => ?_⟩
    · have events : (decoder.storeSource seq payload).2 =
          (decoder.makeRoom (decoder.sourceDeltas seq payload)).2 ++
            [DecoderEvent.recovered seq payload false] := rfl
      rw [silent, events, makeRoom_silent complete]
      rfl
    · obtain ⟨state, found⟩ := Option.ne_none_iff_exists'.mp held
      have before := settled.sources other state found
      rw [sources, OrdMap.get?_insert] at before
      split_ifs at before with same
      · exact Or.inl same
      · exact Or.inr (by simp [room.sources other state before])

end FecDecoder

end BetterParsec
