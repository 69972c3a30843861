import BetterParsec.Video.Moves

set_option autoImplicit false
set_option linter.all false

/-!
# Frame order

What the reassembly state keeps in every run, and from it that frames leave
without gaps or repeats between two discontinuities.
-/

namespace BetterParsec

inductive Since where
  | start
  | gap
  | frame (unit : DecodeUnit)

def RxEvent.track (since : Since) : RxEvent → Since
  | .frame unit => .frame unit
  | .discontinuity _ _ => .gap
  | .ack _ => since

def since (events : List RxEvent) : Since := events.foldl RxEvent.track .start

@[simp] theorem since_concat (events : List RxEvent) (event : RxEvent) :
    since (events ++ [event]) = event.track (since events) := by
  simp [since]

namespace PendingFrame

-- The counter of a frame counts its filled slots.
structure Tallied (frame : PendingFrame) : Prop where
  slots : frame.parts.length = frame.chunkCount.toNat
  received : frame.receivedCount = frame.parts.countP Option.isSome

theorem tallied_openFrame (chunk : Chunk) (isV2 : Bool) : (chunk.openFrame isV2).Tallied := by
  constructor
  · simp [Chunk.openFrame]
  · simp [Chunk.openFrame, List.countP_replicate]

theorem Tallied.store {frame : PendingFrame} (tallied : frame.Tallied) {chunk : Chunk}
    (awaits : frame.awaits chunk) (viaFec : Bool) : (frame.store chunk viaFec).Tallied := by
  have free : frame.parts[chunk.chunkIndex.toNat]? = some none := of_decide_eq_true awaits
  obtain ⟨inside, empty⟩ := List.getElem?_eq_some_iff.mp free
  constructor
  · simpa [PendingFrame.store] using tallied.slots
  · simp only [PendingFrame.store, List.countP_set inside, empty, tallied.received]
    simp

theorem joinParts_of_full (parts : List (Option (List UInt8)))
    (full : parts.countP Option.isSome = parts.length) : ∃ data, joinParts parts = some data := by
  rw [List.countP_eq_length] at full
  induction parts with
  | nil => exact ⟨[], rfl⟩
  | cons part rest ih =>
    obtain ⟨data, joined⟩ := ih (fun other member => full other (List.mem_cons_of_mem _ member))
    obtain ⟨bytes, found⟩ := Option.isSome_iff_exists.mp (full part List.mem_cons_self)
    exact ⟨bytes ++ data, by simp [found, joinParts, joined]⟩

end PendingFrame

namespace VideoReceiver

-- Only frames of the active epoch are held, queued frames are complete, and none is queued while
-- an IDR is awaited.
structure Kept (rx : VideoReceiver) : Prop where
  pending : ∀ key frame, rx.pending.lookup key = some frame →
    rx.activeEpoch = some key.1 ∧ frame.Tallied
  completed : ∀ key found, rx.completed.lookup key = some found →
    rx.activeEpoch = some key.1 ∧ found.frameId = key.2 ∧
      ∃ data, PendingFrame.joinParts found.frame.parts = some data
  gated : rx.awaitingIdr → ∀ key, rx.completed.lookup key = none

theorem kept_reset (rx : VideoReceiver) : rx.reset.Kept :=
  ⟨by simp [reset], by simp [reset], by simp [reset]⟩

theorem Kept.activate {rx : VideoReceiver} (kept : rx.Kept) (epoch : UInt32)
    (inactive : rx.activeEpoch = none) : { rx with activeEpoch := some epoch }.Kept := by
  refine ⟨fun key frame held => ?_, fun key found queued => ?_, kept.gated⟩
  · have active := (kept.pending key frame held).1
    simp [inactive] at active
  · have active := (kept.completed key found queued).1
    simp [inactive] at active

theorem Kept.intake {epoch : UInt32} {isV2 : Bool} {chunks : Chunk → Prop}
    {rx next : VideoReceiver} {emitted : List RxEvent} (kept : rx.Kept)
    (active : rx.activeEpoch = some epoch) (move : Intake epoch isV2 chunks rx emitted next) :
    next.Kept := by
  cases move with
  | discontinue => exact rx.kept_reset
  | openFrame chunk =>
    refine ⟨fun key frame held => ?_, kept.completed, kept.gated⟩
    simp only [openPending, Assoc.lookup_insert_some] at held
    obtain ⟨rfl, rfl⟩ | ⟨-, held⟩ := held
    · exact ⟨active, PendingFrame.tallied_openFrame chunk isV2⟩
    · exact kept.pending key frame held
  | store chunk old viaFec brought absent found agrees awaits =>
    refine ⟨fun key frame held => ?_, kept.completed, kept.gated⟩
    simp only [updatePending, Assoc.lookup_insert_some] at held
    obtain ⟨rfl, rfl⟩ | ⟨-, held⟩ := held
    · exact ⟨active, (kept.pending _ _ found).2.store awaits viaFec⟩
    · exact kept.pending key frame held
  | drop frameId frame =>
    refine ⟨fun key other held => ?_, kept.completed, kept.gated⟩
    simp only [dropFrame, Assoc.lookup_erase_some] at held
    exact kept.pending key other held.2
  | queue frameId frame nowMs absent found full admitted =>
    have tallied := (kept.pending _ _ found).2
    refine ⟨fun key other held => ?_, fun key queued held => ?_, fun awaiting => ?_⟩
    · simp only [queueFrame, Assoc.lookup_erase_some] at held
      exact kept.pending key other held.2
    · simp only [queueFrame, Assoc.lookup_insert_some] at held
      obtain ⟨rfl, rfl⟩ | ⟨-, held⟩ := held
      · refine ⟨active, rfl, PendingFrame.joinParts_of_full _ ?_⟩
        rw [← tallied.received, full, tallied.slots]
      · exact kept.completed key queued held
    · have gated : frame.isKey = false ∧ rx.awaitingIdr := by
        simpa [queueFrame] using awaiting
      simp [admitted gated.2] at gated
  | ack nowMs =>
    obtain ⟨⟨count, time, highest, state⟩, -⟩ := rx.ackEvents_frame nowMs
    rw [state]
    exact ⟨kept.pending, kept.completed, kept.gated⟩

theorem Kept.erase {rx : VideoReceiver} (kept : rx.Kept) (expected : UInt32 × UInt32) :
    { rx with completed := rx.completed.erase expected }.Kept := by
  refine ⟨kept.pending, fun key found held => ?_, fun awaiting key => ?_⟩
  · rw [Assoc.lookup_erase_some] at held
    exact kept.completed key found held.2
  · rw [Option.eq_none_iff_forall_ne_some]
    intro found held
    rw [Assoc.lookup_erase_some, kept.gated awaiting key] at held
    simp at held

theorem Kept.release {rx next : VideoReceiver} {emitted : List RxEvent} (kept : rx.Kept)
    (move : Release rx emitted next) : next.Kept := by
  cases move with
  | gap => exact rx.kept_reset
  | emit key first =>
    have erased := kept.erase (key.1, rx.nextFrameId.getD first.frameId)
    exact ⟨erased.pending, erased.completed, erased.gated⟩
  | corrupt =>
    have reset := rx.kept_reset
    exact ⟨reset.pending, reset.completed, reset.gated⟩
  | hollow key first =>
    have erased := kept.erase (key.1, rx.nextFrameId.getD first.frameId)
    exact ⟨erased.pending, erased.completed, erased.gated⟩
  | ack nowMs =>
    obtain ⟨⟨count, time, highest, state⟩, -⟩ := rx.ackEvents_frame nowMs
    rw [state]
    exact ⟨kept.pending, kept.completed, kept.gated⟩

theorem Kept.emitted {rx : VideoReceiver} (kept : rx.Kept) {key expected : UInt32 × UInt32}
    {first found : CompletedFrame} (oldest : rx.completed.lookup key = some first)
    (turn : rx.completed.lookup expected = some found) :
    rx.activeEpoch = some key.1 ∧ found.frameId = expected.2 ∧ rx.awaitingIdr = false := by
  refine ⟨(kept.completed key first oldest).1, (kept.completed _ found turn).2.1, ?_⟩
  by_contra awaiting
  rw [Bool.not_eq_false] at awaiting
  simp [kept.gated awaiting key] at oldest

@[simp] theorem since_ackEvents (seen : List RxEvent) (rx : VideoReceiver) (nowMs : Nat) :
    since (seen ++ (rx.ackEvents nowMs).2) = since seen := by
  obtain ⟨-, none | ⟨seq, some⟩⟩ := rx.ackEvents_frame nowMs
  · rw [none, List.append_nil]
  · rw [some, since_concat]
    rfl

-- After a frame the anchor is the next id of the same epoch, and no IDR is awaited.
def Anchored (seen : List RxEvent) (rx : VideoReceiver) : Prop :=
  ∀ unit, since seen = .frame unit → rx.activeEpoch = some unit.epoch ∧
    rx.nextFrameId = some (unit.frameId + 1) ∧ rx.awaitingIdr = false

theorem anchored_gap (seen : List RxEvent) (rx : VideoReceiver) (epoch : UInt32)
    (reason : DiscontinuityReason) :
    rx.Anchored (seen ++ [RxEvent.discontinuity epoch reason]) := by
  intro unit framed
  simp [RxEvent.track] at framed

theorem Anchored.intake {seen emitted : List RxEvent} {epoch : UInt32} {isV2 : Bool}
    {chunks : Chunk → Prop} {rx next : VideoReceiver} (anchored : rx.Anchored seen)
    (move : Intake epoch isV2 chunks rx emitted next) : next.Anchored (seen ++ emitted) := by
  cases move with
  | discontinue => exact anchored_gap seen _ epoch _
  | openFrame chunk =>
    rw [List.append_nil]
    intro unit framed
    obtain ⟨active, anchor, released⟩ := anchored unit framed
    exact ⟨active, by simp [openPending, anchor], released⟩
  | store =>
    rw [List.append_nil]
    exact anchored
  | drop frameId frame held awaiting =>
    rw [List.append_nil]
    intro unit framed
    simp [(anchored unit framed).2.2] at awaiting
  | queue frameId frame =>
    rw [List.append_nil]
    intro unit framed
    obtain ⟨active, anchor, released⟩ := anchored unit framed
    exact ⟨active, anchor, by simp [queueFrame, released]⟩
  | ack nowMs =>
    intro unit framed
    rw [since_ackEvents] at framed
    obtain ⟨⟨count, time, highest, state⟩, -⟩ := rx.ackEvents_frame nowMs
    rw [state]
    exact anchored unit framed

theorem Anchored.release {seen emitted : List RxEvent} {rx next : VideoReceiver}
    (anchored : rx.Anchored seen) (kept : rx.Kept) (move : Release rx emitted next) :
    next.Anchored (seen ++ emitted) := by
  cases move with
  | gap => exact anchored_gap seen _ _ _
  | emit key first found data oldest turn =>
    intro unit framed
    obtain ⟨active, -, released⟩ := kept.emitted oldest turn
    rw [since_concat, RxEvent.track, Since.frame.injEq] at framed
    subst framed
    exact ⟨active, rfl, released⟩
  | corrupt => exact anchored_gap seen _ _ _
  | hollow key first found turn missing =>
    obtain ⟨-, -, data, whole⟩ := kept.completed _ found turn
    simp [missing] at whole
  | ack nowMs =>
    intro unit framed
    rw [since_ackEvents] at framed
    obtain ⟨⟨count, time, highest, state⟩, -⟩ := rx.ackEvents_frame nowMs
    rw [state]
    exact anchored unit framed

-- A frame right behind another one is its successor.
def Consecutive (before : List RxEvent) (event : RxEvent) : Prop :=
  ∀ unit previous, event = .frame unit → since before = .frame previous →
    unit.epoch = previous.epoch ∧ unit.frameId = previous.frameId + 1

theorem consecutive_of_no_frame (before : List RxEvent) (event : RxEvent)
    (other : ∀ unit, event ≠ .frame unit) : Consecutive before event := by
  intro unit previous framed
  exact absurd framed (other unit)

theorem consecutive_release {seen emitted : List RxEvent} {rx next : VideoReceiver}
    (earlier : Runs.Emissions Consecutive seen) (anchored : rx.Anchored seen) (kept : rx.Kept)
    (move : Release rx emitted next) : Runs.Emissions Consecutive (seen ++ emitted) := by
  cases move with
  | gap => exact earlier.concat (consecutive_of_no_frame _ _ (by simp))
  | emit key first found data oldest turn =>
    apply earlier.concat
    intro unit previous framed adjacent
    obtain ⟨active, anchor, -⟩ := anchored previous adjacent
    obtain ⟨current, turned, -⟩ := kept.emitted oldest turn
    rw [anchor, Option.getD_some] at turned
    rw [active, Option.some.injEq] at current
    rw [RxEvent.frame.injEq] at framed
    subst framed
    exact ⟨current.symm, turned⟩
  | corrupt => exact earlier.concat (consecutive_of_no_frame _ _ (by simp))
  | hollow => simpa using earlier
  | ack nowMs =>
    apply earlier.append
    intro before event member
    exact consecutive_of_no_frame before event (rx.ackEvents_no_frame nowMs event member)

/-- Between two discontinuities the frames of every run have consecutive ids in one epoch. -/
theorem run_frames_consecutive (nowMs : Nat) (calls : List RxCall) :
    Runs.Emissions Consecutive (Runs.run call (.new nowMs) calls).2 := by
  have kept := Runs.run_invariant_of_forall call
    (fun seen rx => rx.Kept ∧ rx.Anchored seen ∧ Runs.Emissions Consecutive seen) ?_ []
    (.new nowMs) calls ?_
  · exact kept.2.2
  · apply call_keeps
    · refine ⟨?_, ?_, ?_, ?_⟩
      · intro seen rx epoch inactive held
        refine ⟨held.1.activate epoch inactive, fun unit framed => ?_, held.2.2⟩
        have active := (held.2.1 unit framed).1
        simp [inactive] at active
      · intro seen rx epoch nowMs held
        exact ⟨kept_reset _, anchored_gap seen _ _ _,
          held.2.2.concat (consecutive_of_no_frame _ _ (by simp))⟩
      · intro seen rx symbol held
        exact ⟨⟨held.1.pending, held.1.completed, held.1.gated⟩, held.2.1, held.2.2⟩
      · intro seen rx epoch held
        exact ⟨kept_reset _, anchored_gap seen _ _ _,
          held.2.2.concat (consecutive_of_no_frame _ _ (by simp))⟩
    · intro seen rx epoch isV2 chunks emitted next active held move
      refine ⟨held.1.intake active move, held.2.1.intake move, held.2.2.append ?_⟩
      intro before event member
      exact consecutive_of_no_frame before event (move.no_frame event member)
    · intro seen rx emitted next held move
      exact ⟨held.1.release move, held.2.1.release held.1 move,
        consecutive_release held.2.2 held.2.1 held.1 move⟩
    · intro seen rx held
      exact ⟨⟨held.1.pending, held.1.completed, held.1.gated⟩, held.2.1, held.2.2⟩
  · refine ⟨⟨?_, ?_, ?_⟩, ?_, Runs.emissions_nil _⟩ <;> simp [VideoReceiver.new, Anchored, since]

end VideoReceiver

end BetterParsec
