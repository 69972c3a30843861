import BetterParsec.Browser.PipeMoves
import BetterParsec.Video.Gate

set_option autoImplicit false
set_option linter.all false

/-!
# Frame order and books of the pipe

Between two discontinuities the frames that the pipe submits have consecutive
ids, and after every call its four structures agree.
-/

namespace BetterParsec

namespace Web

namespace FecDecodePipe

-- `completedOrder` lists the keys of `completed`, no frame is both pending and completed, and the
-- byte count is that of the stored fragments.
structure BooksExact (pipe : FecDecodePipe) : Prop where
  nodup : pipe.completedOrder.Nodup
  listed : ∀ key, key ∈ pipe.completedOrder ↔ key ∈ pipe.completed
  apart : ∀ key ∈ pipe.pending, key ∉ pipe.completed
  few : pipe.pending.size + pipe.completed.size ≤ maxPendingFrames
  buffered : pipe.bytesBuffered = Assoc.weight PendingFrame.storedBytes pipe.pending.toFinmap +
    Assoc.weight (·.frame.storedBytes) pipe.completed.toFinmap
  capped : pipe.bytesBuffered ≤ maxReassemblyReorderBytes
  returned : pipe.threw = false

theorem Booked.exact {pipe : FecDecodePipe} (booked : pipe.Booked) : pipe.BooksExact := by
  obtain ⟨books, exact, pending, completed, same, reads⟩ := booked.audited
  obtain rfl : pipe.pending = pending := congrArg VideoReceiver.pending same
  obtain rfl : Assoc.mapValues native pipe.completed = completed :=
    congrArg VideoReceiver.completed same
  have bytes : pipe.bytesBuffered.toNat = books.bufferedBytes :=
    congrArg VideoReceiver.bufferedBytes same
  have counted := booked.counted
  refine ⟨?_, fun key => ?_, fun key member queued => ?_, ?_, ?_, ?_, booked.returned⟩
  · rw [booked.order, List.nodup_reverse]
    exact pipe.completed.keys_nodup
  · rw [booked.order, List.mem_reverse]
    exact AList.mem_keys.symm
  · apply exact.apart key
    · rwa [reads.held, Finmap.mem_toFinmap]
    · rwa [reads.queued, Finmap.mem_toFinmap, AList.mem_keys, Assoc.keys_mapValues]
  · have few := exact.few
    have sizes := exact.sizes reads
    rw [exact.pendingListed.length, exact.completedListed.length] at sizes
    rw [sizes] at few
    have queued := pipe.size_view
    exact queued ▸ few
  · have buffered := exact.buffered
    rw [reads.held, reads.queued, Assoc.weight_mapValues, ← bytes] at buffered
    have stored : ((fun found : BetterParsec.CompletedFrame => found.frame.storedBytes) ∘ native) =
        fun found => found.frame.storedBytes := rfl
    rw [stored] at buffered
    omega
  · have capped := exact.capped
    have cap : rxDecoderMaxBytes.toNat = 16 * 1024 * 1024 := rfl
    rw [← bytes, cap] at capped
    rw [maxReassemblyReorderBytes]
    omega

theorem booked_new (onAck : Bool) (start : Nat → Int) : (FecDecodePipe.new onAck start).Booked :=
  ⟨⟨rfl, by simp [new], Int.le_refl 0, rfl⟩,
    ((new onAck start).view.audited_reset).congr rfl rfl rfl⟩

-- What holds before the pipe is configured as well.
structure Ready (pipe : FecDecodePipe) : Prop where
  booked : pipe.Booked
  latched : pipe.Latched
  kept : pipe.view.Kept

theorem ready_new (onAck : Bool) (start : Nat → Int) : (FecDecodePipe.new onAck start).Ready := by
  refine ⟨booked_new onAck start, fun _ => rfl, ?_, ?_, ?_⟩ <;> simp [new, view]

open VideoReceiver in
theorem upkeep_kept : Upkeep (fun _ _ _ => True) (fun _ rx => rx.Kept) := by
  apply upkeep_of_moves
  · intro seen rx epoch isV2 chunks emitted next active kept move
    exact kept.intake active move
  · intro seen rx emitted next kept move
    exact kept.release move
  · intro seen rx decoder needsIdr kept
    exact ⟨kept.pending, kept.completed, kept.gated⟩
  · intro seen rx epoch _ other
    exact kept_reset other

theorem Ready.call {pipe : FecDecodePipe} (ready : pipe.Ready) (input : PipeCall) :
    (pipe.call input).1.Ready := by
  have first (rx : VideoReceiver) : { rx.reset with needsIdr := false }.Kept := by
    have reset := rx.kept_reset
    exact ⟨reset.pending, reset.completed, reset.gated⟩
  obtain ⟨booked, kept⟩ := upkeep_kept.call ready.booked ready.latched ready.kept (fun _ => first)
    input (guards_true [] pipe input)
  exact ⟨booked, ready.latched.call input, kept⟩

theorem run_ready (onAck : Bool) (start : Nat → Int) (calls : List PipeCall) :
    (Runs.run call (.new onAck start) calls).1.Ready :=
  Runs.run_invariant_of_forall call (fun _ pipe => pipe.Ready)
    (fun _ _ input ready => ready.call input) [] _ calls (ready_new onAck start)

-- The invariant of a run of the configured pipe.
structure InOrder (seen : List RxEvent) (rx : VideoReceiver) : Prop where
  kept : rx.Kept
  anchored : rx.Anchored seen
  consecutive : Runs.Emissions VideoReceiver.Consecutive seen

open VideoReceiver in
theorem upkeep_inOrder : Upkeep (fun _ _ _ => True) InOrder := by
  apply upkeep_of_moves
  · intro seen rx epoch isV2 chunks emitted next active held move
    refine ⟨held.kept.intake active move, held.anchored.intake move, held.consecutive.append ?_⟩
    intro before event member
    exact consecutive_of_no_frame before event (move.no_frame event member)
  · intro seen rx emitted next held move
    exact ⟨held.kept.release move, held.anchored.release held.kept move,
      consecutive_release held.consecutive held.anchored held.kept move⟩
  · intro seen rx decoder needsIdr held
    exact ⟨⟨held.kept.pending, held.kept.completed, held.kept.gated⟩, held.anchored,
      held.consecutive⟩
  · intro seen rx epoch held other
    exact ⟨kept_reset other, anchored_gap seen _ epoch _,
      held.consecutive.concat (consecutive_of_no_frame _ _ (by simp))⟩

/-- Once the pipe is configured, the frames between two discontinuities have consecutive ids, and
after every call the books are exact. -/
theorem run_orderly (onAck : Bool) (start : Nat → Int) (before calls : List PipeCall)
    (configured : (Runs.run call (.new onAck start) before).1.hasExplicitConfig) :
    Runs.Emissions VideoReceiver.Consecutive
        (Runs.run call (Runs.run call (.new onAck start) before).1 calls).2 ∧
      (Runs.run call (Runs.run call (.new onAck start) before).1 calls).1.BooksExact := by
  have ready := run_ready onAck start before
  have kept := Runs.run_invariant_of_forall call
    (fun seen pipe => (pipe.Ready ∧ pipe.hasExplicitConfig) ∧ InOrder seen pipe.view) ?_ [] _ calls
    ⟨⟨ready, configured⟩, ready.kept, by simp [VideoReceiver.Anchored, since],
      Runs.emissions_nil _⟩
  · exact ⟨kept.2.consecutive, kept.1.1.booked.exact⟩
  · rintro seen pipe input ⟨⟨ready, configured⟩, ordered⟩
    have unset (fresh : pipe.hasExplicitConfig = false) (rx : VideoReceiver) :
        InOrder seen { rx.reset with needsIdr := false } := by
      simp [configured] at fresh
    have called := upkeep_inOrder.call ready.booked ready.latched ordered unset input
      (guards_true seen pipe input)
    exact ⟨⟨ready.call input, call_configured configured input⟩, called.2⟩

/-- A key frame and its successor. -/
theorem run_orderly_successor :
    let pipe := (Runs.run call (.new true (fun _ => 0)) [.configure (.v2 1) (fun _ => 0)]).1
    let calls : List PipeCall :=
      [.submitPacket (VideoReceiver.soloMessage 0 7 true [1] (ieeeCrc32 [1])) (fun _ => 1),
        .submitPacket (VideoReceiver.soloMessage 1 8 false [2] (ieeeCrc32 [2])) (fun _ => 2)]
    Runs.Emissions VideoReceiver.Consecutive (Runs.run call pipe calls).2 ∧
      (Runs.run call pipe calls).1.BooksExact :=
  run_orderly true (fun _ => 0) _ _ (by decide +kernel)

end FecDecodePipe

end Web

end BetterParsec
