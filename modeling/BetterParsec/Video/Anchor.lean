import BetterParsec.Video.Gate

set_option autoImplicit false
set_option linter.all false

/-!
# The ordering anchor after a discontinuity

While an IDR is awaited, the anchor is free or claimed by a pending key frame, so
that the key frame which ends the wait leaves with the message that completed
it. The tail of the flush loop breaks this when the frame it took was damaged.
-/

namespace BetterParsec

-- A complete frame that `assemble_frame` turns into a discontinuity.
def PendingFrame.damaged (frame : PendingFrame) (frameId : UInt32) : Bool :=
  (PendingFrame.joinParts frame.parts).any (fun data => !frame.intact frameId data)

namespace VideoReceiver

-- While an IDR is awaited, only a pending key frame has claimed the anchor.
def AnchorClear (rx : VideoReceiver) : Prop :=
  rx.awaitingIdr → ∀ frameId, rx.nextFrameId = some frameId →
    ∃ epoch frame, rx.pending.lookup (epoch, frameId) = some frame ∧ frame.isKey

theorem Gate.anchorClear {seen : List RxEvent} {rx : VideoReceiver} (gate : rx.Gate none seen)
    (kept : rx.Kept) : rx.AnchorClear := by
  intro awaiting frameId anchor
  obtain key | stale := (gate.guarded (gate.awaiting awaiting)).steady frameId anchor
  · obtain ⟨epoch, frame, held, isKey⟩ | ⟨epoch, found, queued, -⟩ := (rx.holds_iff _ _).mp key
    · exact ⟨epoch, frame, held, isKey⟩
    · simp [kept.gated awaiting] at queued
  · simp at stale

-- Every frame that the flush loop takes out of the queue passes its length and checksum.
def takesSound : Nat → VideoReceiver → Bool
  | 0, _ => true
  | fuel + 1, rx =>
      match rx.completed.entries.getLast? with
      | none => true
      | some ⟨firstKey, first⟩ =>
          let expected := (firstKey.1, rx.nextFrameId.getD first.frameId)
          match rx.completed.lookup expected with
          | none => true
          | some found =>
              !found.frame.damaged found.frameId &&
                takesSound fuel (rx.takeFrame expected found).1

def flushSound (rx : VideoReceiver) : Bool := takesSound rx.completed.size rx

theorem takeFrame_sound (rx : VideoReceiver) (expected : UInt32 × UInt32) (found : CompletedFrame)
    (sound : found.frame.damaged found.frameId = false) :
    ∀ event ∈ (rx.takeFrame expected found).2, ∀ epoch, event ≠ .discontinuity epoch .frameCrc := by
  unfold takeFrame assembleFrame
  cases whole : PendingFrame.joinParts found.frame.parts with
  | none => simp
  | some data =>
    have intact : found.frame.intact found.frameId data := by
      simpa [PendingFrame.damaged, whole] using sound
    simp [intact]

theorem flushLoop_sound (nowMs fuel : Nat) (rx : VideoReceiver) (sound : takesSound fuel rx) :
    ∀ event ∈ (flushLoop nowMs fuel rx).2, ∀ epoch, event ≠ .discontinuity epoch .frameCrc := by
  induction fuel generalizing rx with
  | zero => simp [flushLoop]
  | succ fuel ih =>
    unfold takesSound at sound
    unfold flushLoop
    cases last : rx.completed.entries.getLast? with
    | none => simp
    | some entry =>
      obtain ⟨key, first⟩ := entry
      simp only [last] at sound ⊢
      cases turn : rx.completed.lookup (key.1, rx.nextFrameId.getD first.frameId) with
      | none =>
        dsimp only
        split_ifs <;> simp [VideoReceiver.discontinue]
      | some found =>
        simp only [turn, Bool.and_eq_true, Bool.not_eq_true'] at sound
        intro event member
        obtain taken | later := List.mem_append.mp member
        · exact rx.takeFrame_sound _ found sound.1 event taken
        · exact ih _ sound.2 event later

-- The invariant of a run in which no damaged frame is taken.
structure Anchoring (seen : List RxEvent) (rx : VideoReceiver) : Prop where
  kept : rx.Kept
  gate : rx.Gate none seen

theorem anchoring_reset (seen : List RxEvent) (rx : VideoReceiver) (epoch : UInt32)
    (reason : DiscontinuityReason) :
    rx.reset.Anchoring (seen ++ [RxEvent.discontinuity epoch reason]) :=
  ⟨kept_reset rx, gate_reset none seen rx epoch reason⟩

theorem Anchoring.relabel {seen : List RxEvent} {rx : VideoReceiver} (anchoring : rx.Anchoring seen)
    (epoch : Option UInt32) (decoder : FecDecoder) (needsIdr : Bool)
    (kept : { rx with activeEpoch := epoch, decoder := decoder, needsIdr := needsIdr }.Kept) :
    { rx with activeEpoch := epoch, decoder := decoder, needsIdr := needsIdr }.Anchoring seen := by
  refine ⟨kept, anchoring.gate.awaiting, fun gap => ?_⟩
  have guarded := anchoring.gate.guarded gap
  exact ⟨guarded.keyed, guarded.unclaimed, guarded.anchored, guarded.steady⟩

theorem anchoring_entry : Entry Anchoring := by
  refine ⟨?_, ?_, ?_, ?_⟩
  · intro seen rx epoch inactive anchoring
    exact anchoring.relabel (some epoch) rx.decoder rx.needsIdr
      (anchoring.kept.activate epoch inactive)
  · intro seen rx epoch nowMs _
    exact anchoring_reset seen _ epoch _
  · intro seen rx symbol anchoring
    exact anchoring.relabel rx.activeEpoch (rx.decode symbol).decoder rx.needsIdr
      ⟨anchoring.kept.pending, anchoring.kept.completed, anchoring.kept.gated⟩
  · intro seen rx epoch _
    exact anchoring_reset seen rx epoch _

theorem Anchoring.intake {seen emitted : List RxEvent} {epoch : UInt32} {isV2 : Bool}
    {chunks : Chunk → Prop} {rx next : VideoReceiver} (anchoring : rx.Anchoring seen)
    (active : rx.activeEpoch = some epoch) (move : Intake epoch isV2 chunks rx emitted next) :
    next.Anchoring (seen ++ emitted) :=
  ⟨anchoring.kept.intake active move,
    anchoring.gate.intake anchoring.kept active (fun _ _ _ => by simp) move⟩

theorem Anchoring.taken {seen taken : List RxEvent} {epoch : UInt32} {isV2 : Bool}
    {chunks : Chunk → Prop} {rx middle : VideoReceiver} (anchoring : rx.Anchoring seen)
    (active : rx.activeEpoch = some epoch)
    (path : Runs.Path (Intake epoch isV2 chunks) rx taken middle) :
    middle.Anchoring (seen ++ taken) ∧ middle.activeEpoch = some epoch :=
  path.keeps (fun seen rx => rx.Anchoring seen ∧ rx.activeEpoch = some epoch)
    (fun _ _ _ _ held move => ⟨held.1.intake held.2 move, move.activeEpoch.trans held.2⟩)
    seen ⟨anchoring, active⟩

theorem Anchoring.flushed {seen : List RxEvent} {rx : VideoReceiver} (anchoring : rx.Anchoring seen)
    (nowMs : Nat) (sound : rx.flushSound) :
    (rx.flushReorder nowMs).1.Anchoring (seen ++ (rx.flushReorder nowMs).2) :=
  (flushLoop_path nowMs _ rx).keeps_where
    (fun event => ∀ epoch, event ≠ .discontinuity epoch .frameCrc) (fun seen rx => rx.Anchoring seen)
    (fun _ _ _ _ silent held move =>
      ⟨held.kept.release move, held.gate.release_sound held.kept move silent⟩)
    (flushLoop_sound nowMs _ rx sound) seen anchoring

theorem Anchoring.ack {seen : List RxEvent} {rx : VideoReceiver} (anchoring : rx.Anchoring seen)
    (nowMs : Nat) : (rx.ackEvents nowMs).1.Anchoring (seen ++ (rx.ackEvents nowMs).2) := by
  have move : Release rx _ _ := .ack rx nowMs
  refine ⟨anchoring.kept.release move, anchoring.gate.release_sound anchoring.kept move ?_⟩
  obtain ⟨-, none | ⟨seq, some⟩⟩ := rx.ackEvents_frame nowMs
  · simp [none]
  · simp [some]

-- The chunk raises no discontinuity: it is a duplicate, or it fits its frame and the buffer.
def admits (rx : VideoReceiver) (epoch : UInt32) (isV2 : Bool) (chunk : Chunk) : Bool :=
  (rx.completed.lookup (epoch, chunk.frameId)).isSome ||
    match rx.pending.lookup (epoch, chunk.frameId) with
    | some frame =>
        frame.metadataMatches isV2 chunk && (!frame.awaits chunk || !rx.bufferFull chunk.fragment)
    | none =>
        rx.pending.size + rx.completed.size < maxPendingFrames && !rx.bufferFull chunk.fragment

theorem storeChunk_silent (rx : VideoReceiver) (key : UInt32 × UInt32) (frame : PendingFrame)
    (isV2 : Bool) (chunk : Chunk) (viaFec : Bool) (nowMs : Nat)
    (agrees : frame.metadataMatches isV2 chunk)
    (fits : frame.awaits chunk → rx.bufferFull chunk.fragment = false) :
    (rx.storeChunk key frame isV2 chunk viaFec nowMs).2 = [] := by
  unfold storeChunk
  cases awaits : frame.awaits chunk with
  | false => simp [agrees]
  | true =>
    simp only [agrees, fits awaits, Bool.not_true, Bool.false_eq_true, if_false]
    split_ifs <;> rfl

theorem admitChunk_silent (rx : VideoReceiver) (epoch : UInt32) (isV2 : Bool) (chunk : Chunk)
    (viaFec : Bool) (nowMs : Nat) (admitted : rx.admits epoch isV2 chunk) :
    (rx.admitChunk epoch isV2 chunk viaFec nowMs).2 = [] := by
  cases queued : rx.completed.lookup (epoch, chunk.frameId) with
  | some done => simp [admitChunk, queued]
  | none =>
    cases held : rx.pending.lookup (epoch, chunk.frameId) with
    | some frame =>
      simp only [admits, queued, held, Option.isSome_none, Bool.false_or, Bool.and_eq_true]
        at admitted
      simp only [admitChunk, queued, held, Option.isSome_none, Bool.false_eq_true, if_false]
      apply storeChunk_silent _ _ _ _ _ _ _ admitted.1
      intro awaits
      simpa [awaits] using admitted.2
    | none =>
      simp only [admits, queued, held, Option.isSome_none, Bool.false_or, Bool.and_eq_true,
        decide_eq_true_eq, Bool.not_eq_true'] at admitted
      simp only [admitChunk, queued, held, Option.isSome_none, Bool.false_eq_true, if_false,
        admitted.2]
      rw [if_neg (by omega)]
      apply storeChunk_silent
      · simp [PendingFrame.metadataMatches, Chunk.openFrame]
      · intro _
        exact admitted.2

theorem deliverEvent_silent (rx : VideoReceiver) (epoch : UInt32) (isV2 : Bool) (nowMs : Nat)
    (event : DecoderEvent) (admitted : (chunkOf isV2 event).all (rx.admits epoch isV2)) :
    ∀ emitted ∈ (deliverEvent epoch isV2 nowMs rx event).2, ∀ other reason,
      emitted ≠ .discontinuity other reason := by
  cases event with
  | lossSpan | evicted => simp [deliverEvent]
  | recovered seq payload viaFec =>
    have quiet : (rx.deliverChunk epoch isV2 payload viaFec nowMs).2 = [] := by
      unfold deliverChunk
      cases parsed : parseChunk isV2 payload with
      | none => rfl
      | some chunk =>
        dsimp only
        split_ifs with wellFormed
        · apply admitChunk_silent
          simpa [chunkOf, parsed, wellFormed, Option.filter_some] using admitted
        · rfl
    simp only [deliverEvent, Runs.andThen, quiet, List.nil_append]
    obtain ⟨-, none | ⟨ack, some⟩⟩ := VideoReceiver.ackEvents_frame
      (rx.deliverChunk epoch isV2 payload viaFec nowMs).1 nowMs
    · simp [none]
    · simp [some]

-- The key frame `key` has ended the wait and is first in line.
structure Leading (key : UInt32 × UInt32) (rx : VideoReceiver) : Prop where
  settled : rx.awaitingIdr = false
  anchor : rx.nextFrameId = some key.2
  front : ∃ found, rx.completed.entries.getLast? = some ⟨key, found⟩ ∧ found.frame.isKey

-- An IDR is awaited, and no key frame but `key` is pending.
structure Waiting (key : UInt32 × UInt32) (rx : VideoReceiver) : Prop where
  awaiting : rx.awaitingIdr
  only : ∀ other frame, rx.pending.lookup other = some frame → frame.isKey → other = key

theorem waiting_reset (key : UInt32 × UInt32) (rx : VideoReceiver) : rx.reset.Waiting key :=
  ⟨rfl, by simp [reset]⟩

theorem Leading.intake {epoch : UInt32} {isV2 : Bool} {chunks : Chunk → Prop}
    {key : UInt32 × UInt32} {rx next : VideoReceiver} {emitted : List RxEvent}
    (leading : rx.Leading key) (move : Intake epoch isV2 chunks rx emitted next) :
    (∃ reason, emitted = [.discontinuity epoch reason]) ∧ next.Waiting key ∨ next.Leading key := by
  obtain ⟨settled, anchor, found, front, isKey⟩ := leading
  cases move with
  | discontinue reason => exact Or.inl ⟨⟨reason, rfl⟩, waiting_reset key rx⟩
  | openFrame chunk =>
    exact Or.inr ⟨settled, by simp [openPending, anchor], found, front, isKey⟩
  | store => exact Or.inr ⟨settled, anchor, found, front, isKey⟩
  | drop frameId frame held awaiting => simp [settled] at awaiting
  | queue frameId frame nowMs absent =>
    right
    refine ⟨by simp [queueFrame, settled], anchor, found, ?_, isKey⟩
    have fresh : (epoch, frameId) ∉ rx.completed := AList.lookup_eq_none.mp absent
    simp only [queueFrame, AList.entries_insert_of_notMem fresh]
    rw [List.getLast?_cons, front]
    rfl
  | ack nowMs =>
    right
    obtain ⟨⟨count, time, highest, state⟩, -⟩ := rx.ackEvents_frame nowMs
    rw [state]
    exact ⟨settled, anchor, found, front, isKey⟩

theorem Waiting.intake {seen emitted : List RxEvent} {epoch : UInt32} {isV2 : Bool} {chunk : Chunk}
    {rx next : VideoReceiver} (waiting : rx.Waiting (epoch, chunk.frameId))
    (anchoring : rx.Anchoring seen) (move : Intake epoch isV2 (· = chunk) rx emitted next) :
    next.Waiting (epoch, chunk.frameId) ∨ next.Leading (epoch, chunk.frameId) := by
  obtain ⟨awaiting, only⟩ := waiting
  cases move with
  | discontinue => exact Or.inl (waiting_reset _ rx)
  | openFrame other brought =>
    left
    refine ⟨awaiting, fun key frame held isKey => ?_⟩
    simp only [openPending, Assoc.lookup_insert_some] at held
    obtain ⟨rfl, -⟩ | ⟨-, held⟩ := held
    · rw [brought]
    · exact only key frame held isKey
  | store other frame viaFec brought =>
    left
    refine ⟨awaiting, fun key frame held isKey => ?_⟩
    simp only [updatePending, Assoc.lookup_insert_some] at held
    obtain ⟨rfl, -⟩ | ⟨-, held⟩ := held
    · rw [brought]
    · exact only key frame held isKey
  | drop =>
    left
    refine ⟨awaiting, fun key frame held isKey => ?_⟩
    simp only [dropFrame, Assoc.lookup_erase_some] at held
    exact only key frame held.2 isKey
  | queue frameId frame nowMs absent held full admitted =>
    right
    have isKey := admitted awaiting
    have here := only _ frame held isKey
    rw [Prod.mk.injEq] at here
    obtain rfl := here.2
    have guarded := anchoring.gate.guarded (anchoring.gate.awaiting awaiting)
    have none_queued : ∀ key, rx.completed.lookup key = none := anchoring.kept.gated awaiting
    -- The key frame is held, so the anchor is claimed, and it is the only one to claim it.
    have anchor : rx.nextFrameId = some chunk.frameId := by
      cases anchor : rx.nextFrameId with
      | none =>
        have key : rx.holds chunk.frameId true :=
          (rx.holds_iff _ _).mpr (Or.inl ⟨epoch, frame, held, isKey⟩)
        exact absurd key (guarded.unclaimed awaiting anchor chunk.frameId)
      | some current =>
        obtain key | stale := guarded.steady current anchor
        · obtain ⟨other, found, pending, kind⟩ | ⟨other, found, queued, -⟩ :=
            (rx.holds_iff _ _).mp key
          · have same := only _ found pending kind
            rw [Prod.mk.injEq] at same
            rw [same.2]
          · simp [none_queued] at queued
        · simp at stale
    have empty : rx.completed.entries = [] := by
      rw [List.eq_nil_iff_forall_not_mem]
      intro entry member
      have found := AList.mem_lookup_iff.mpr member
      simp [none_queued] at found
    refine ⟨by simp [queueFrame, isKey], anchor, ⟨chunk.frameId, frame, nowMs⟩, ?_, isKey⟩
    simp [queueFrame, empty]
  | ack nowMs =>
    left
    obtain ⟨⟨count, time, highest, state⟩, -⟩ := rx.ackEvents_frame nowMs
    rw [state]
    exact ⟨awaiting, only⟩

theorem Leading.flushed {key : UInt32 × UInt32} {rx : VideoReceiver} (leading : rx.Leading key)
    (kept : rx.Kept) (nowMs : Nat) (sound : rx.flushSound) :
    ∃ unit, .frame unit ∈ (rx.flushReorder nowMs).2 ∧ unit.epoch = key.1 ∧
      unit.frameId = key.2 ∧ unit.isKey := by
  obtain ⟨-, anchor, found, front, isKey⟩ := leading
  have queued : rx.completed.lookup key = some found :=
    AList.mem_lookup_iff.mpr (List.mem_of_getLast? front)
  obtain ⟨-, same, data, whole⟩ := kept.completed key found queued
  obtain ⟨fuel, size⟩ : ∃ fuel, rx.completed.size = fuel + 1 := by
    apply Nat.exists_eq_succ_of_ne_zero
    intro empty
    have none_left : rx.completed.entries = [] := by
      simpa [FrameMap.size, AList.keys, List.keys] using empty
    simp [none_left] at front
  have turn : rx.completed.lookup (key.1, rx.nextFrameId.getD found.frameId) = some found := by
    rw [anchor]
    exact queued
  have intact : found.frame.intact found.frameId data := by
    simp only [flushSound, size, takesSound, front, turn, Bool.and_eq_true] at sound
    simpa [PendingFrame.damaged, whole] using sound.1
  simp only [flushReorder, size, flushLoop, front, turn, Runs.andThen, takeFrame,
    assembleFrame, whole, intact, Bool.not_true, Bool.false_eq_true, if_false]
  exact ⟨_, List.mem_append_left _ (List.mem_singleton_self _), rfl, same, isKey⟩

section Delivery

variable (epoch : UInt32) (isV2 : Bool) (nowMs : Nat)

-- No chunk of these events raises a discontinuity.
def Calm (rx : VideoReceiver) (events : List DecoderEvent) : Prop :=
  Runs.Along (deliverEvent epoch isV2 nowMs)
    (fun _ rx event => (chunkOf isV2 event).all (rx.admits epoch isV2)) [] rx events

instance decidableCalm (rx : VideoReceiver) (events : List DecoderEvent) :
    Decidable (Calm epoch isV2 nowMs rx events) :=
  inferInstanceAs (Decidable (Runs.Along _ _ _ _ _))

-- Once an event has ended the wait for an IDR, the events after it are calm.
def Settles : VideoReceiver → List DecoderEvent → Prop
  | _, [] => True
  | rx, event :: later =>
      (rx.awaitingIdr → (deliverEvent epoch isV2 nowMs rx event).1.awaitingIdr = false →
        Calm epoch isV2 nowMs (deliverEvent epoch isV2 nowMs rx event).1 later) ∧
      Settles (deliverEvent epoch isV2 nowMs rx event).1 later

instance decidableSettles (rx : VideoReceiver) (events : List DecoderEvent) :
    Decidable (Settles epoch isV2 nowMs rx events) :=
  match events with
  | [] => .isTrue trivial
  | event :: later =>
      have := decidableSettles (deliverEvent epoch isV2 nowMs rx event).1 later
      inferInstanceAs (Decidable (_ ∧ _))

variable {epoch isV2 nowMs}

theorem Calm.silent {rx : VideoReceiver} {events : List DecoderEvent}
    (calm : Calm epoch isV2 nowMs rx events) :
    ∀ emitted ∈ (Runs.run (deliverEvent epoch isV2 nowMs) rx events).2, ∀ other reason,
      emitted ≠ .discontinuity other reason := by
  have silent := Runs.run_invariant _ _
    (fun seen _ => ∀ emitted ∈ seen, ∀ other reason, emitted ≠ .discontinuity other reason)
    ?_ [] rx events (by simp) calm
  · simpa using silent
  · intro seen state event earlier admitted emitted member
    obtain before | now := List.mem_append.mp member
    · exact earlier emitted before
    · exact state.deliverEvent_silent epoch isV2 nowMs event admitted emitted now

theorem Settles.calm {rx : VideoReceiver} {earlier later : List DecoderEvent} {event : DecoderEvent}
    (settles : Settles epoch isV2 nowMs rx (earlier ++ event :: later))
    (awaiting : (Runs.run (deliverEvent epoch isV2 nowMs) rx earlier).1.awaitingIdr)
    (ended : (Runs.run (deliverEvent epoch isV2 nowMs) rx (earlier ++ [event])).1.awaitingIdr =
      false) :
    Calm epoch isV2 nowMs (Runs.run (deliverEvent epoch isV2 nowMs) rx (earlier ++ [event])).1
      later := by
  induction earlier generalizing rx with
  | nil => exact settles.1 awaiting ended
  | cons first rest ih => exact ih settles.2 awaiting ended

theorem Leading.calm {key : UInt32 × UInt32} {rx : VideoReceiver} {events : List DecoderEvent}
    (leading : rx.Leading key) (calm : Calm epoch isV2 nowMs rx events) :
    (Runs.run (deliverEvent epoch isV2 nowMs) rx events).1.Leading key := by
  have path : Runs.Path (Intake epoch isV2 (fun _ => True)) rx _ _ :=
    rx.deliverEvents_path events nowMs (fun _ _ _ _ => trivial)
  refine path.keeps_where (fun event => ∀ other reason, event ≠ .discontinuity other reason)
    (fun _ rx => rx.Leading key) ?_ calm.silent [] leading
  intro seen state emitted next silent held move
  obtain ⟨⟨reason, rfl⟩, -⟩ | held := held.intake move
  · exact absurd rfl (silent _ List.mem_cons_self epoch reason)
  · exact held

end Delivery

-- Frames that the flush takes are sound, and once the wait for an IDR has ended the rest of the
-- message raises no discontinuity.
def Undisturbed (rx : VideoReceiver) : RxCall → Prop
  | .onMessage buf nowMs =>
      ∀ arrival ∈ rx.arrival buf nowMs, (arrival.delivered nowMs).1.flushSound ∧
        Settles arrival.message.epoch arrival.message.isV2 nowMs arrival.start.1 arrival.events
  | .tickEvents _ => rx.flushSound
  | .tick _ | .pollNeedsIdr => True

instance decidableUndisturbed (rx : VideoReceiver) (input : RxCall) :
    Decidable (rx.Undisturbed input) :=
  match input with
  | .onMessage buf nowMs =>
      match arrived : rx.arrival buf nowMs with
      | none => .isTrue (by simp [Undisturbed, arrived])
      | some arrival =>
          decidable_of_iff ((arrival.delivered nowMs).1.flushSound ∧
            Settles arrival.message.epoch arrival.message.isV2 nowMs arrival.start.1
              arrival.events) (by simp [Undisturbed, arrived])
  | .tickEvents _ => instDecidableEqBool rx.flushSound true
  | .tick _ | .pollNeedsIdr => .isTrue trivial

-- The receiver once the first of its chunks were delivered.
def Arrival.after (arrival : Arrival) (nowMs : Nat) (events : List DecoderEvent) : VideoReceiver :=
  (Runs.run (deliverEvent arrival.message.epoch arrival.message.isV2 nowMs) arrival.start.1
    events).1

-- A key frame that ends the wait for an IDR, and that no other pending key frame competes with,
-- leaves with the message that completes it.
def Prompt (rx : VideoReceiver) : RxCall → Prop
  | .onMessage buf nowMs =>
      ∀ arrival ∈ rx.arrival buf nowMs, ∀ earlier event later chunk found,
        arrival.events = earlier ++ event :: later →
        chunkOf arrival.message.isV2 event = some chunk →
        (arrival.after nowMs earlier).Waiting (arrival.message.epoch, chunk.frameId) →
        (arrival.after nowMs (earlier ++ [event])).completed.lookup
          (arrival.message.epoch, chunk.frameId) = some found →
        ∃ unit, .frame unit ∈ (rx.onMessage buf nowMs).2 ∧ unit.epoch = arrival.message.epoch ∧
          unit.frameId = chunk.frameId ∧ unit.isKey
  | .tickEvents _ | .tick _ | .pollNeedsIdr => True

theorem Anchoring.start {seen : List RxEvent} {rx : VideoReceiver} (anchoring : rx.Anchoring seen)
    {arrival : Arrival} {buf : List UInt8} {nowMs : Nat}
    (arrived : rx.arrival buf nowMs = some arrival) :
    arrival.start.1.Anchoring (seen ++ arrival.start.2) ∧
      arrival.start.1.activeEpoch = some arrival.message.epoch :=
  anchoring_entry.start anchoring (onMessage_of_some arrived).1

theorem Anchoring.after {seen : List RxEvent} {arrival : Arrival}
    (anchoring : arrival.start.1.Anchoring seen)
    (active : arrival.start.1.activeEpoch = some arrival.message.epoch) (nowMs : Nat)
    (events : List DecoderEvent) :
    ∃ seen, (arrival.after nowMs events).Anchoring seen ∧
      (arrival.after nowMs events).activeEpoch = some arrival.message.epoch := by
  have path : Runs.Path
      (Intake arrival.message.epoch arrival.message.isV2 (fun _ => True)) arrival.start.1
      (Runs.run (deliverEvent arrival.message.epoch arrival.message.isV2 nowMs) arrival.start.1
        events).2 (arrival.after nowMs events) :=
    deliverEvents_path arrival.start.1 events nowMs (fun _ _ _ _ => trivial)
  exact ⟨_, anchoring.taken active path⟩

/-- The event that completes the key frame puts it first in line. -/
theorem Waiting.delivered {seen : List RxEvent} {rx : VideoReceiver} {epoch : UInt32} {isV2 : Bool}
    {nowMs : Nat} {event : DecoderEvent} {chunk : Chunk} {found : CompletedFrame}
    (waiting : rx.Waiting (epoch, chunk.frameId)) (anchoring : rx.Anchoring seen)
    (active : rx.activeEpoch = some epoch) (brought : chunkOf isV2 event = some chunk)
    (queued : (Runs.run (deliverEvent epoch isV2 nowMs) rx [event]).1.completed.lookup
      (epoch, chunk.frameId) = some found) :
    (Runs.run (deliverEvent epoch isV2 nowMs) rx [event]).1.Leading (epoch, chunk.frameId) := by
  have path : Runs.Path (Intake epoch isV2 (· = chunk)) rx
      (Runs.run (deliverEvent epoch isV2 nowMs) rx [event]).2
      (Runs.run (deliverEvent epoch isV2 nowMs) rx [event]).1 := by
    refine rx.deliverEvents_path [event] nowMs ?_
    intro other member brings found
    rw [List.mem_singleton.mp member, brought, Option.some.injEq] at found
    exact found.symm
  have reached := path.keeps
    (fun seen rx => (rx.Anchoring seen ∧ rx.activeEpoch = some epoch) ∧
      (rx.Waiting (epoch, chunk.frameId) ∨ rx.Leading (epoch, chunk.frameId))) ?_
    seen ⟨⟨anchoring, active⟩, Or.inl waiting⟩
  · obtain ⟨⟨anchoring, -⟩, waiting | leading⟩ := reached
    · simp [anchoring.kept.gated waiting.awaiting] at queued
    · exact leading
  · rintro seen state emitted next ⟨⟨anchoring, active⟩, held⟩ move
    refine ⟨⟨anchoring.intake active move, move.activeEpoch.trans active⟩, ?_⟩
    obtain waiting | leading := held
    · exact waiting.intake anchoring move
    · obtain ⟨-, waiting⟩ | leading := leading.intake move
      · exact Or.inl waiting
      · exact Or.inr leading

theorem Anchoring.prompt {seen : List RxEvent} {rx : VideoReceiver} (anchoring : rx.Anchoring seen)
    {input : RxCall} (undisturbed : rx.Undisturbed input) : rx.Prompt input := by
  cases input with
  | tickEvents | tick | pollNeedsIdr => trivial
  | onMessage buf nowMs =>
    intro arrival arrived earlier event later chunk found split brought waiting queued
    obtain ⟨sound, settles⟩ := undisturbed arrival arrived
    rw [split] at settles
    obtain ⟨started, active⟩ := anchoring.start arrived
    obtain ⟨_, before, active_before⟩ := started.after active nowMs earlier
    have ended : arrival.after nowMs (earlier ++ [event]) =
        (Runs.run (deliverEvent arrival.message.epoch arrival.message.isV2 nowMs)
          (arrival.after nowMs earlier) [event]).1 := by
      rw [Arrival.after, Runs.run_append]
      rfl
    have leading := waiting.delivered before active_before brought (ended ▸ queued)
    rw [← ended] at leading
    have whole : (arrival.delivered nowMs).1 =
        (Runs.run (deliverEvent arrival.message.epoch arrival.message.isV2 nowMs)
          (arrival.after nowMs (earlier ++ [event])) later).1 := by
      rw [Arrival.delivered, split, List.append_cons, Runs.run_append]
      rfl
    have last := leading.calm (settles.calm waiting.awaiting leading.settled)
    rw [← whole] at last
    obtain ⟨_, held, -⟩ := started.after active nowMs arrival.events
    obtain ⟨unit, emitted, same⟩ := last.flushed held.kept nowMs sound
    refine ⟨unit, ?_, same⟩
    rw [(onMessage_of_some arrived).2]
    exact List.mem_append_right _ (List.mem_append_right _ emitted)

theorem Anchoring.called {seen : List RxEvent} {rx : VideoReceiver} (anchoring : rx.Anchoring seen)
    {input : RxCall} (undisturbed : rx.Undisturbed input) :
    (rx.call input).1.Anchoring (seen ++ (rx.call input).2) := by
  cases input with
  | onMessage buf nowMs =>
    cases arrived : rx.arrival buf nowMs with
    | none => simpa [call, onMessage_of_none arrived] using anchoring
    | some arrival =>
      obtain ⟨started, active⟩ := anchoring.start arrived
      have taken := (started.taken active (delivered_path arrival nowMs)).1
      have flushed := taken.flushed nowMs (undisturbed arrival arrived).1
      rw [call, (onMessage_of_some arrived).2]
      simpa [List.append_assoc] using flushed
  | tickEvents nowMs =>
    have acked := (anchoring.flushed nowMs undisturbed).ack nowMs
    simpa [call, tickEvents, Runs.andThen, List.append_assoc] using acked
  | tick nowMs => exact anchoring.ack nowMs
  | pollNeedsIdr =>
    simpa [call, pollNeedsIdr] using anchoring.relabel rx.activeEpoch rx.decoder false
      ⟨anchoring.kept.pending, anchoring.kept.completed, anchoring.kept.gated⟩

theorem anchoring_new (nowMs : Nat) : (VideoReceiver.new nowMs).Anchoring [] := by
  refine ⟨⟨?_, ?_, ?_⟩, ?_, ?_⟩ <;> simp [VideoReceiver.new, since]

/-- In an undisturbed run no gated, dropped or failed frame keeps the anchor while an IDR is
awaited, and the key frame that ends the wait is not held back. -/
theorem run_anchor_clear (nowMs : Nat) (calls : List RxCall)
    (undisturbed : Runs.Along call (fun _ rx input => rx.Undisturbed input) [] (.new nowMs) calls) :
    (Runs.run call (.new nowMs) calls).1.AnchorClear ∧
      Runs.Along call (fun _ rx input => rx.Prompt input) [] (.new nowMs) calls := by
  have kept : ∀ seen (rx : VideoReceiver) input, rx.Anchoring seen → rx.Undisturbed input →
      (rx.call input).1.Anchoring (seen ++ (rx.call input).2) :=
    fun _ _ _ anchoring calm => anchoring.called calm
  constructor
  · have last := Runs.run_invariant call _ _ kept [] _ calls (anchoring_new nowMs) undisturbed
    exact last.gate.anchorClear last.kept
  · exact Runs.along_of_invariant call _ _ kept (fun _ _ _ anchoring calm => anchoring.prompt calm)
      [] _ calls (anchoring_new nowMs) undisturbed

/-- The gap behind frame 0 is given up, and the key frame 9 ends the wait. -/
theorem run_anchor_clear_after_gap :
    let calls : List RxCall :=
      [.onMessage (soloMessage 0 0 true [1] (ieeeCrc32 [1])) 0,
        .onMessage (soloMessage 1 5 false [2] (ieeeCrc32 [2])) 1, .tickEvents 200,
        .onMessage (soloMessage 2 9 true [3] (ieeeCrc32 [3])) 201]
    (Runs.run call (.new 0) calls).1.AnchorClear ∧
      Runs.Along call (fun _ rx input => rx.Prompt input) [] (.new 0) calls :=
  run_anchor_clear 0 _ (by decide +kernel)

/-- The damaged frame 0 keeps the anchor: an IDR is awaited with the anchor at frame 1 and nothing
pending, and the key frame 20 does not leave with its message. -/
theorem run_anchor_stale :
    ¬ (Runs.run call (.new 0) [.onMessage (soloMessage 0 0 false [1] 0) 0]).1.AnchorClear ∧
      (Runs.run call (.new 0)
        [.onMessage (soloMessage 0 0 false [1] 0) 0,
          .onMessage (soloMessage 1 20 true [2] (ieeeCrc32 [2])) 1]).2 =
        [.discontinuity 1 .frameCrc] := by
  constructor
  · intro clear
    obtain ⟨epoch, frame, held, -⟩ := clear (by decide +kernel) 1 (by decide +kernel)
    have empty : (Runs.run call (.new 0)
        [.onMessage (soloMessage 0 0 false [1] 0) 0]).1.pending.entries = [] := by decide +kernel
    have member := AList.mem_lookup_iff.mp held
    simp [empty] at member
  · decide +kernel

end VideoReceiver

end BetterParsec
