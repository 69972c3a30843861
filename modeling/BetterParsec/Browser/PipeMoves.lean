import BetterParsec.Browser.CodecAgreement
import BetterParsec.Browser.FecDecodePipe
import BetterParsec.Video.Bookkeeping

set_option autoImplicit false
set_option linter.all false

/-!
# The pipe as a receiver

The reassembly state of the pipe, read as that of a `VideoReceiver`. Delivering
a chunk and taking a frame do to it what they do to the receiver, except that
the pipe ignores the chunks of a frame behind its anchor, so the moves of the
receiver are also those of the pipe.
-/

namespace BetterParsec

namespace VideoReceiver

-- Some receiver with exact books is in this state.
def Audited (rx : VideoReceiver) : Prop := ∃ books : CheckedReceiver, books.Tracks rx

theorem audited_reset (rx : VideoReceiver) : rx.reset.Audited := by
  let books : CheckedReceiver :=
    { (CheckedReceiver.new 0) with
      decoder := rx.decoder
      activeEpoch := rx.activeEpoch
      needsIdr := true
      awaitingIdr := true
      lastTimestampUs := rx.lastTimestampUs
      symbolsSinceAck := rx.symbolsSinceAck
      lastAckTimeMs := rx.lastAckTimeMs
      lastAckedHighest := rx.lastAckedHighest
      framesRecovered := rx.framesRecovered
      framesDroppedAwaitingIdr := rx.framesDroppedAwaitingIdr }
  have exact : books.Exact :=
    (books.exact_discontinue 0 .reorderGap).congr rfl rfl rfl rfl rfl
  exact ⟨books, exact, ∅, ∅, rfl, rfl, rfl, rfl⟩

/-- The books are of the frames and their bytes only. -/
theorem Audited.congr {rx other : VideoReceiver} (audited : rx.Audited)
    (pending : other.pending = rx.pending) (completed : other.completed = rx.completed)
    (bufferedBytes : other.bufferedBytes = rx.bufferedBytes) : other.Audited := by
  obtain ⟨books, exact, held, queued, rfl, reads⟩ := audited
  let renamed : CheckedReceiver :=
    { books with
      decoder := other.decoder
      activeEpoch := other.activeEpoch
      nextFrameId := other.nextFrameId
      needsIdr := other.needsIdr
      awaitingIdr := other.awaitingIdr
      lastTimestampUs := other.lastTimestampUs
      symbolsSinceAck := other.symbolsSinceAck
      lastAckTimeMs := other.lastAckTimeMs
      lastAckedHighest := other.lastAckedHighest
      framesRecovered := other.framesRecovered
      framesDroppedAwaitingIdr := other.framesDroppedAwaitingIdr }
  refine ⟨renamed, exact.congr rfl rfl rfl rfl rfl, held, queued, ?_, reads.held, reads.queued,
    reads.order⟩
  cases other
  simp only at pending completed bufferedBytes
  subst pending completed bufferedBytes
  rfl

theorem Audited.admitChunk {rx : VideoReceiver} (audited : rx.Audited) (epoch : UInt32)
    (isV2 : Bool) (chunk : Chunk) (viaFec : Bool) (nowMs : Nat) (counted : chunk.chunkCount ≠ 0) :
    (rx.admitChunk epoch isV2 chunk viaFec nowMs).1.Audited := by
  obtain ⟨books, tracks⟩ := audited
  obtain ⟨next, -, tracked⟩ := tracks.admitChunk epoch isV2 chunk viaFec nowMs counted
  exact ⟨next, tracked⟩

theorem Audited.takeFrame {rx : VideoReceiver} (audited : rx.Audited)
    {expected : UInt32 × UInt32} {found : CompletedFrame}
    (queued : rx.completed.lookup expected = some found) :
    (rx.takeFrame expected found).1.Audited ∧
      (rx.takeFrame expected found).1.completed.size < rx.completed.size := by
  obtain ⟨books, tracks⟩ := audited
  have found : books.completed.lookup expected = some found := by
    obtain ⟨-, held, waiting, rfl, reads⟩ := tracks
    exact (reads.lookup_completed expected).trans queued
  obtain ⟨⟨next, -, tracked⟩, fewer⟩ := tracks.takeFrame found
  exact ⟨⟨next, tracked⟩, fewer⟩

/-- A pending frame counts its own bytes, which are part of what is buffered. -/
theorem Audited.pending {rx : VideoReceiver} (audited : rx.Audited) {key : UInt32 × UInt32}
    {frame : PendingFrame} (held : rx.pending.lookup key = some frame) :
    frame.Accounted ∧ frame.bytes ≤ rx.bufferedBytes := by
  obtain ⟨books, exact, pending, completed, rfl, reads⟩ := audited
  have found := (reads.lookup key).trans held
  have accounted := exact.accounted key frame found
  have weighed := Assoc.weight_erase PendingFrame.storedBytes found
  have buffered := exact.buffered
  refine ⟨accounted, ?_⟩
  rw [accounted.bytes]
  change frame.storedBytes ≤ books.bufferedBytes
  omega

/-- A queued frame is complete, and its bytes are part of what is buffered. -/
theorem Audited.completed {rx : VideoReceiver} (audited : rx.Audited) {key : UInt32 × UInt32}
    {found : CompletedFrame} (queued : rx.completed.lookup key = some found) :
    found.frame.Accounted ∧ (∃ data, PendingFrame.joinParts found.frame.parts = some data) ∧
      found.frame.bytes ≤ rx.bufferedBytes := by
  obtain ⟨books, exact, pending, completed, rfl, reads⟩ := audited
  have held := (reads.lookup_completed key).trans queued
  obtain ⟨accounted, whole⟩ := exact.whole key found held
  obtain ⟨fits, -⟩ := exact.removeCompleted held
  exact ⟨accounted, whole, fits⟩

end VideoReceiver

namespace Web

theorem joinParts_length {parts : List (Option (List UInt8))} {data : List UInt8}
    (joined : PendingFrame.joinParts parts = some data) :
    data.length = (parts.map (fun part => (part.getD []).length)).sum := by
  induction parts generalizing data with
  | nil =>
    cases joined
    rfl
  | cons part rest ih =>
    cases part with
    | none => cases joined
    | some bytes =>
      simp only [PendingFrame.joinParts, Option.map_eq_some_iff] at joined
      obtain ⟨tail, found, rfl⟩ := joined
      simp [ih found]

theorem fillParts_joined {parts : List (Option (List UInt8))} {data : List UInt8}
    (joined : PendingFrame.joinParts parts = some data) (filled : List UInt8) :
    fillParts (filled.length + data.length) filled parts = .data (filled ++ data) := by
  induction parts generalizing data filled with
  | nil =>
    cases joined
    simp [fillParts]
  | cons part rest ih =>
    cases part with
    | none => cases joined
    | some bytes =>
      simp only [PendingFrame.joinParts, Option.map_eq_some_iff] at joined
      obtain ⟨tail, found, rfl⟩ := joined
      have later := ih found (filled ++ bytes)
      rw [List.length_append, Nat.add_assoc, List.append_assoc] at later
      rw [fillParts, List.length_append, if_neg (by omega), later]

theorem verify_intact (frame : PendingFrame) (frameId : UInt32) (data : List UInt8) :
    (frame.isV2 && !verifyEncodedFrameV2 frame data) = !frame.intact frameId data := by
  have sums : crc32 data = (frame.encodedFrameCrc32.toNat : Int) ↔
      ieeeCrc32 data = frame.encodedFrameCrc32 := by
    rw [crc32_eq, Int.natCast_inj, UInt32.toNat_inj]
  have same : verifyEncodedFrameV2 frame data =
      (validateEncodedFrameV2 (frame.header frameId) data).isOk := by
    simp only [verifyEncodedFrameV2, validateEncodedFrameV2, PendingFrame.header, sums]
    by_cases size : data.length = frame.encodedFrameLen.toNat <;>
      by_cases sum : ieeeCrc32 data = frame.encodedFrameCrc32 <;>
      simp [size, sum, Except.isOk, Except.toBool]
  rw [PendingFrame.intact, same]
  cases frame.isV2 <;> simp

/-- A chunk that reaches reassembly is within its count. -/
theorem readChunk_inside {isV2 : Bool} {payload : List UInt8} {chunk : Chunk}
    (parsed : readChunk isV2 payload = some chunk) :
    chunk.chunkIndex < chunk.chunkCount ∧ chunk.chunkCount ≠ 0 := by
  have inside (frameType : UInt8) (chunkIndex chunkCount : UInt16)
      (accepted : acceptableHeader frameType chunkIndex chunkCount) :
      chunkIndex < chunkCount ∧ chunkCount ≠ 0 := by
    simp only [acceptableHeader, Bool.not_eq_true', Bool.or_eq_false_iff, decide_eq_false_iff_not,
      ge_iff_le, UInt16.not_le] at accepted
    exact ⟨accepted.2, accepted.1.1.2⟩
  cases isV2 with
  | true =>
    rw [readChunk, if_pos rfl] at parsed
    split at parsed
    next => cases parsed
    next hdr read =>
      dsimp only at parsed
      split_ifs at parsed with accepted
      cases parsed
      exact inside _ _ _ (Bool.and_eq_true_iff.mp accepted).1
  | false =>
    rw [readChunk, if_neg (by decide)] at parsed
    dsimp only at parsed
    split_ifs at parsed with long accepted
    cases parsed
    exact inside _ _ _ accepted

namespace FecDecodePipe

def native (found : CompletedFrame) : BetterParsec.CompletedFrame :=
  ⟨found.frameId, found.frame, found.completedAt.toNat⟩

-- The reassembly state in the receiver's terms; the ACK cadence is not part of it.
def view (pipe : FecDecodePipe) : VideoReceiver :=
  { decoder := pipe.decoder
    pending := pipe.pending
    completed := Assoc.mapValues native pipe.completed
    bufferedBytes := pipe.bytesBuffered.toNat
    activeEpoch := some pipe.config.epoch
    nextFrameId := pipe.nextFrameId
    needsIdr := pipe.needsIdr
    awaitingIdr := pipe.awaitingIdr
    lastTimestampUs := pipe.lastTimestampUs
    symbolsSinceAck := 0
    lastAckTimeMs := 0
    lastAckedHighest := none
    framesRecovered := pipe.framesRecovered
    framesDroppedAwaitingIdr := pipe.framesDroppedAwaitingIdr }

@[simp] theorem view_clear (pipe : FecDecodePipe) : pipe.clear.view = pipe.view.reset := rfl

@[simp] theorem view_read (pipe : FecDecodePipe) : pipe.read.view = pipe.view := rfl

theorem lookup_view (pipe : FecDecodePipe) (key : UInt32 × UInt32) :
    pipe.view.completed.lookup key = (pipe.completed.lookup key).map native :=
  Assoc.lookup_mapValues native pipe.completed key

theorem size_view (pipe : FecDecodePipe) : pipe.view.completed.size = pipe.completed.size := by
  rw [FrameMap.size, FrameMap.size, view, Assoc.keys_mapValues]

theorem overBudget_view (pipe : FecDecodePipe) (counted : 0 ≤ pipe.bytesBuffered) (chunk : Chunk) :
    pipe.view.bufferFull chunk.fragment = pipe.overBudget chunk := by
  have cap : rxDecoderMaxBytes.toNat = 16 * 1024 * 1024 := rfl
  rw [VideoReceiver.bufferFull, overBudget, decide_eq_decide, cap]
  simp only [view, maxReassemblyReorderBytes]
  omega

theorem completeFrame_view (pipe : FecDecodePipe) (key : UInt32 × UInt32) (frame : PendingFrame)
    (clock : Nat → Int) :
    (pipe.completeFrame key frame clock).view =
      pipe.view.completeFrame key frame (pipe.now clock).toNat := by
  have spent : (pipe.bytesBuffered - (frame.bytes : Int)).toNat =
      pipe.bytesBuffered.toNat - frame.bytes := by omega
  have awaiting : pipe.view.awaitingIdr = pipe.awaitingIdr := rfl
  rw [completeFrame, VideoReceiver.completeFrame, awaiting]
  cases pipe.awaitingIdr && !frame.isKey with
  | true =>
    simp only [if_true, view, VideoReceiver.dropFrame, spent]
    rfl
  | false =>
    simp only [Bool.false_eq_true, if_false, view, VideoReceiver.queueFrame, read,
      Assoc.mapValues_insert, native]

theorem storePart_view (pipe : FecDecodePipe) (key : UInt32 × UInt32) {frame : PendingFrame}
    {isV2 : Bool} {chunk : Chunk} (viaFec : Bool) (clock : Nat → Int)
    (counted : 0 ≤ pipe.bytesBuffered) (slots : frame.parts.length = frame.chunkCount.toNat)
    (agrees : frame.metadataMatches isV2 chunk) (inside : chunk.chunkIndex < chunk.chunkCount) :
    Prod.map view id (pipe.storePart key frame chunk viaFec clock) =
      pipe.view.storeChunk key frame isV2 chunk viaFec (pipe.now clock).toNat := by
  have count : frame.chunkCount = chunk.chunkCount := by
    simp only [PendingFrame.metadataMatches, Bool.and_eq_true, decide_eq_true_eq] at agrees
    exact agrees.1.1.2
  have slot : chunk.chunkIndex.toNat < frame.parts.length := by
    rw [slots, count]
    exact inside
  have free : frame.awaits chunk = !occupied frame chunk := by
    rw [PendingFrame.awaits, occupied, List.getElem?_eq_getElem slot]
    cases frame.parts[chunk.chunkIndex.toNat] <;> simp
  have grown : (pipe.bytesBuffered + (chunk.fragment.length : Int)).toNat =
      pipe.bytesBuffered.toNat + chunk.fragment.length := by omega
  rw [storePart, VideoReceiver.storeChunk, free, overBudget_view pipe counted, agrees]
  cases occupied frame chunk with
  | true => rfl
  | false =>
    cases pipe.overBudget chunk with
    | true => rfl
    | false =>
      simp only [Bool.not_true, Bool.not_false, Bool.false_eq_true, if_false]
      have stored : view
          { pipe with
            pending := pipe.pending.insert key (frame.store chunk viaFec)
            bytesBuffered := pipe.bytesBuffered + chunk.fragment.length } =
          pipe.view.updatePending key (frame.store chunk viaFec) chunk.fragment.length := by
        simp only [view, VideoReceiver.updatePending, grown]
      by_cases full : (frame.store chunk viaFec).receivedCount =
          (frame.store chunk viaFec).chunkCount.toNat
      · rw [if_pos full, if_neg (not_not_intro full), Prod.map_apply, completeFrame_view, stored]
        rfl
      · rw [if_neg full, if_pos full, Prod.map_apply, stored]
        rfl

theorem admitChunk_view (pipe : FecDecodePipe) (epoch : UInt32) (isV2 : Bool) {chunk : Chunk}
    (viaFec : Bool) (clock : Nat → Int) (audited : pipe.view.Audited)
    (counted : 0 ≤ pipe.bytesBuffered) (inside : chunk.chunkIndex < chunk.chunkCount)
    (ahead : pipe.behind chunk = false) :
    Prod.map view id (pipe.admitChunk epoch isV2 chunk viaFec clock) =
      pipe.view.admitChunk epoch isV2 chunk viaFec (pipe.now clock).toNat := by
  have held : pipe.view.pending = pipe.pending := rfl
  have opens : (pipe.openPending (epoch, chunk.frameId) (chunk.openFrame isV2)).view =
      pipe.view.openPending (epoch, chunk.frameId) (chunk.openFrame isV2) := rfl
  have fresh : (chunk.openFrame isV2).metadataMatches isV2 chunk := by
    simp [Chunk.openFrame, PendingFrame.metadataMatches]
  rw [admitChunk, VideoReceiver.admitChunk, lookup_view, Option.isSome_map, size_view, ahead,
    Bool.or_false, overBudget_view pipe counted, held]
  cases (pipe.completed.lookup (epoch, chunk.frameId)).isSome with
  | true => rfl
  | false =>
    simp only [Bool.false_eq_true, if_false]
    cases found : pipe.pending.lookup (epoch, chunk.frameId) with
    | none =>
      by_cases crowded : pipe.pending.size + pipe.completed.size ≥ maxPendingFrames
      · simp only [crowded, if_true]
        exact (if_pos (show _ ≥ BetterParsec.maxPendingFrames from crowded)).symm
      · simp only [crowded, if_false]
        rw [if_neg (show ¬ _ ≥ BetterParsec.maxPendingFrames from crowded)]
        cases pipe.overBudget chunk with
        | true => rfl
        | false =>
          have stored := storePart_view
            (pipe.openPending (epoch, chunk.frameId) (chunk.openFrame isV2)) (epoch, chunk.frameId)
            viaFec clock counted (by simp [Chunk.openFrame]) fresh inside
          rw [opens] at stored
          exact stored
    | some frame =>
      cases agrees : frame.metadataMatches isV2 chunk with
      | false =>
        simp only [Bool.not_false, if_true, VideoReceiver.storeChunk, agrees]
        rfl
      | true =>
        have slots := (audited.pending found).1.tallied.slots
        simp only [agrees, Bool.not_true, Bool.false_eq_true, if_false]
        exact storePart_view pipe _ viaFec clock counted slots agrees inside

-- The keys of `completed` are those of `completedOrder`, oldest first, and its records carry them.
structure Listing (pipe : FecDecodePipe) : Prop where
  order : pipe.completedOrder = pipe.completed.keys.reverse
  named : ∀ key found, pipe.completed.lookup key = some found →
    found.epoch = key.1 ∧ found.frameId = key.2
  counted : 0 ≤ pipe.bytesBuffered
  returned : pipe.threw = false

theorem listing_clear {pipe : FecDecodePipe} (returned : pipe.threw = false) :
    pipe.clear.Listing :=
  ⟨rfl, by simp [clear], Int.le_refl 0, returned⟩

theorem Listing.completeFrame {pipe : FecDecodePipe} (listing : pipe.Listing)
    {key : UInt32 × UInt32} {frame : PendingFrame} (absent : pipe.completed.lookup key = none)
    (covered : (frame.bytes : Int) ≤ pipe.bytesBuffered) (clock : Nat → Int) :
    (pipe.completeFrame key frame clock).Listing := by
  rw [FecDecodePipe.completeFrame]
  cases pipe.awaitingIdr && !frame.isKey with
  | true => exact ⟨listing.order, listing.named, Int.sub_nonneg.mpr covered, listing.returned⟩
  | false =>
    refine ⟨?_, fun other found queued => ?_, listing.counted, listing.returned⟩
    · have fresh : key ∉ pipe.completed := AList.lookup_eq_none.mp absent
      simp only [Bool.false_eq_true, if_false, listing.order,
        Assoc.keys_insert_fresh _ _ fresh, List.reverse_cons]
    · simp only [Bool.false_eq_true, if_false, Assoc.lookup_insert_some] at queued
      obtain ⟨rfl, rfl⟩ | ⟨-, queued⟩ := queued
      · exact ⟨rfl, rfl⟩
      · exact listing.named other found queued

theorem Listing.storePart {pipe : FecDecodePipe} (listing : pipe.Listing) {key : UInt32 × UInt32}
    {frame : PendingFrame} (absent : pipe.completed.lookup key = none)
    (covered : (frame.bytes : Int) ≤ pipe.bytesBuffered) (chunk : Chunk) (viaFec : Bool)
    (clock : Nat → Int) : (pipe.storePart key frame chunk viaFec clock).1.Listing := by
  have grown : Listing
      { pipe with
        pending := pipe.pending.insert key (frame.store chunk viaFec)
        bytesBuffered := pipe.bytesBuffered + chunk.fragment.length } :=
    ⟨listing.order, listing.named, Int.add_nonneg listing.counted (Int.natCast_nonneg _),
      listing.returned⟩
  unfold FecDecodePipe.storePart
  split_ifs
  · exact listing
  · exact listing_clear listing.returned
  · dsimp only
    split_ifs
    · refine grown.completeFrame absent ?_ clock
      simp only [PendingFrame.store, Int.natCast_add]
      omega
    · exact grown

-- The books of the pipe are exact, and no call has thrown.
structure Booked (pipe : FecDecodePipe) : Prop extends pipe.Listing where
  audited : pipe.view.Audited

theorem booked_clear {pipe : FecDecodePipe} (returned : pipe.threw = false) :
    pipe.clear.Booked :=
  ⟨listing_clear returned, pipe.view.audited_reset⟩

theorem Booked.covered {pipe : FecDecodePipe} (booked : pipe.Booked) {key : UInt32 × UInt32}
    {frame : PendingFrame} (held : pipe.pending.lookup key = some frame) :
    (frame.bytes : Int) ≤ pipe.bytesBuffered := by
  have fits := (booked.audited.pending held).2
  have counted := booked.counted
  simp only [view] at fits
  omega

theorem Booked.admitChunk {pipe : FecDecodePipe} (booked : pipe.Booked) (epoch : UInt32)
    (isV2 : Bool) {chunk : Chunk} (viaFec : Bool) (clock : Nat → Int)
    (inside : chunk.chunkIndex < chunk.chunkCount) (counted : chunk.chunkCount ≠ 0) :
    (pipe.admitChunk epoch isV2 chunk viaFec clock).1.Booked := by
  cases ahead : pipe.behind chunk with
  | true =>
    rw [FecDecodePipe.admitChunk, ahead, Bool.or_true]
    exact booked
  | false =>
    refine ⟨?_, ?_⟩
    · rw [FecDecodePipe.admitChunk, ahead, Bool.or_false]
      cases queued : pipe.completed.lookup (epoch, chunk.frameId) with
      | some found => exact booked.toListing
      | none =>
        simp only [Option.isSome_none, Bool.false_eq_true, if_false]
        cases found : pipe.pending.lookup (epoch, chunk.frameId) with
        | none =>
          dsimp only
          split_ifs
          · exact listing_clear booked.returned
          · exact listing_clear booked.returned
          · have opened : (pipe.openPending (epoch, chunk.frameId)
                (chunk.openFrame isV2)).Listing :=
              ⟨booked.order, booked.named, booked.counted, booked.returned⟩
            exact opened.storePart queued booked.counted chunk viaFec clock
        | some frame =>
          dsimp only
          split_ifs
          · exact listing_clear booked.returned
          · exact booked.toListing.storePart queued (booked.covered found) chunk viaFec clock
    · have same := admitChunk_view pipe epoch isV2 viaFec clock booked.audited booked.counted inside
        ahead
      have audited := booked.audited.admitChunk epoch isV2 chunk viaFec (pipe.now clock).toNat
        counted
      rw [← same] at audited
      exact audited

-- The frame whose turn it is, where `firstKey` is the oldest one.
def turn (pipe : FecDecodePipe) (firstKey : UInt32 × UInt32) : UInt32 × UInt32 :=
  (firstKey.1, pipe.nextFrameId.getD firstKey.2)

theorem Listing.removeCompleted {pipe : FecDecodePipe} (listing : pipe.Listing) {key : UInt32 × UInt32}
    {next : CompletedFrame} (queued : pipe.completed.lookup key = some next) :
    (pipe.removeCompleted key).Listing := by
  refine ⟨?_, fun other found held => ?_, listing.counted, listing.returned⟩
  · have member : key ∈ pipe.completedOrder := by
      rw [listing.order, List.mem_reverse]
      exact AList.mem_keys.mp (AList.lookup_isSome.mp (by rw [queued]; rfl))
    have nodup := List.nodup_reverse.mpr pipe.completed.keys_nodup
    simp only [FecDecodePipe.removeCompleted, spliceKey, member, if_true]
    rw [listing.order, nodup.erase_eq_filter, Assoc.keys_erase_filter, ← List.filter_reverse]
    apply List.filter_congr
    intro other _
    simp [bne, beq_eq_decide]
  · exact listing.named other found ((Assoc.lookup_erase_some _ _ _ _).mp held).2

/-- Where the parts fill the buffer, a frame is submitted if it is intact. -/
theorem takeFrame_filled (pipe : FecDecodePipe) (key : UInt32 × UInt32) {next : CompletedFrame}
    {data : List UInt8} (filled : fillParts next.frame.bytes [] next.frame.parts = .data data) :
    pipe.takeFrame key next = some
      (let removed := pipe.removeCompleted key
       let released := { removed with bytesBuffered := pipe.bytesBuffered - next.frame.bytes }
       let emitted := if next.frame.intact next.frameId data then
         released.submitDecodeUnit next data else released.discontinue next.epoch .frameCrc
       ({ emitted.1 with nextFrameId := some (next.frameId + 1) }, emitted.2)) := by
  simp only [takeFrame, emitFrame, filled, verify_intact next.frame next.frameId]
  cases next.frame.intact next.frameId data <;> rfl

/-- Taking a frame never throws, and does to the receiver what its own `takeFrame` does. -/
theorem Booked.takeFrame {pipe : FecDecodePipe} (booked : pipe.Booked) {key : UInt32 × UInt32}
    {next : CompletedFrame} (queued : pipe.completed.lookup key = some next) :
    ∃ taken, pipe.takeFrame key next = some taken ∧ taken.1.Booked ∧
      Prod.map view id taken = pipe.view.takeFrame key (native next) := by
  have found : pipe.view.completed.lookup key = some (native next) := by
    rw [lookup_view, queued]
    rfl
  obtain ⟨accounted, ⟨data, joined⟩, fits⟩ := booked.audited.completed found
  have audited := (booked.audited.takeFrame found).1
  have epoch := (booked.named key next queued).1
  have erased := booked.toListing.removeCompleted queued
  have filled : fillParts next.frame.bytes [] next.frame.parts = .data data := by
    have bytes : next.frame.bytes = data.length :=
      accounted.bytes.trans (joinParts_length joined).symm
    have whole := fillParts_joined joined []
    rwa [List.length_nil, Nat.zero_add, ← bytes] at whole
  have spent : (pipe.bytesBuffered - (next.frame.bytes : Int)).toNat =
      pipe.bytesBuffered.toNat - next.frame.bytes := by omega
  have covered : 0 ≤ pipe.bytesBuffered - next.frame.bytes := by
    have counted := booked.counted
    simp only [view, native] at fits
    omega
  refine ⟨_, pipe.takeFrame_filled key filled, ?_⟩
  have same : Prod.map view id
      (let removed := pipe.removeCompleted key
       let released := { removed with bytesBuffered := pipe.bytesBuffered - next.frame.bytes }
       let emitted := if next.frame.intact next.frameId data then
         released.submitDecodeUnit next data else released.discontinue next.epoch .frameCrc
       (({ emitted.1 with nextFrameId := some (next.frameId + 1) } : FecDecodePipe), emitted.2)) =
      pipe.view.takeFrame key (native next) := by
    simp only [VideoReceiver.takeFrame, VideoReceiver.assembleFrame, joined, epoch]
    cases intact : next.frame.intact next.frameId data with
    | false =>
      simp only [native, intact, Bool.not_false, Bool.false_eq_true, if_true, if_false]
      rfl
    | true =>
      simp only [native, intact, Bool.not_true, Bool.false_eq_true, if_true, if_false,
        Prod.map_apply, submitDecodeUnit, FecDecodePipe.removeCompleted, view, spent, epoch,
        Assoc.mapValues_erase, id_eq]
      rfl
  refine ⟨⟨?_, ?_⟩, same⟩
  · dsimp only
    split_ifs
    · exact ⟨erased.order, erased.named, covered, erased.returned⟩
    · exact ⟨rfl, by simp [FecDecodePipe.discontinue, clear], Int.le_refl 0, booked.returned⟩
  · rw [← same] at audited
    exact audited

/-- One round of the flush: nothing is queued, the frame whose turn it is has not come, or it is
taken. -/
theorem Booked.round {pipe : FecDecodePipe} (booked : pipe.Booked) (now : Int) (fuel : Nat) :
    pipe.view.completed.entries.getLast? = none ∧ flushLoop now (fuel + 1) pipe = (pipe, []) ∨
      ∃ key first, pipe.completed.lookup key = some first ∧
        pipe.view.completed.entries.getLast? = some ⟨key, native first⟩ ∧
        (pipe.completed.lookup (pipe.turn key) = none ∧ flushLoop now (fuel + 1) pipe =
            (if pipe.completed.size ≤ maxCompletedFrames &&
                now - first.completedAt < reorderMaxWaitMs then (pipe, [])
              else pipe.discontinue key.1 .reorderGap) ∨
          ∃ next taken, pipe.completed.lookup (pipe.turn key) = some next ∧
            pipe.takeFrame (pipe.turn key) next = some taken ∧ taken.1.Booked ∧
            Prod.map view id taken = pipe.view.takeFrame (pipe.turn key) (native next) ∧
            flushLoop now (fuel + 1) pipe = Runs.andThen taken (flushLoop now fuel)) := by
  have viewed : pipe.view.completed.entries.getLast? =
      pipe.completed.entries.getLast?.map (fun entry => ⟨entry.1, native entry.2⟩) := by
    rw [view, Assoc.mapValues, List.getLast?_map]
  have front : pipe.completedOrder.head? = pipe.completed.entries.getLast?.map (·.1) := by
    rw [booked.order, List.head?_reverse, AList.keys, List.keys, List.getLast?_map]
  have length : pipe.completedOrder.length = pipe.completed.size := by
    rw [booked.order, List.length_reverse]
    rfl
  rw [viewed]
  cases last : pipe.completed.entries.getLast? with
  | none =>
    rw [last, Option.map_none, List.head?_eq_none_iff] at front
    left
    simp only [FecDecodePipe.flushLoop, front, Option.map_none, and_self]
  | some entry =>
    obtain ⟨key, first⟩ := entry
    rw [last, Option.map_some, List.head?_eq_some_iff] at front
    obtain ⟨rest, order⟩ := front
    have oldest : pipe.completed.lookup key = some first :=
      AList.mem_lookup_iff.mpr (List.mem_of_getLast? last)
    have epoch := (booked.named key first oldest).1
    have expected : pipe.expectedKey key first = pipe.turn key := by
      rw [expectedKey, turn, epoch]
      cases pipe.nextFrameId <;> rfl
    refine Or.inr ⟨key, first, oldest, rfl, ?_⟩
    simp only [FecDecodePipe.flushLoop, order, oldest]
    rw [expected]
    cases queued : pipe.completed.lookup (pipe.turn key) with
    | none =>
      left
      simp only [← order, length, epoch, true_and]
    | some next =>
      obtain ⟨taken, given, held, same⟩ := booked.takeFrame queued
      right
      simp only [given]
      exact ⟨next, taken, rfl, given, held, same, rfl⟩

/-- Flushing is a path of release moves that keeps the books. -/
theorem Booked.flushLoop {pipe : FecDecodePipe} (booked : pipe.Booked) (now : Int) (fuel : Nat) :
    Runs.Path VideoReceiver.Release pipe.view (flushLoop now fuel pipe).2
      (flushLoop now fuel pipe).1.view ∧ (FecDecodePipe.flushLoop now fuel pipe).1.Booked := by
  induction fuel generalizing pipe with
  | zero => exact ⟨.done pipe.view, booked⟩
  | succ fuel ih =>
    obtain ⟨-, idle⟩ | ⟨key, first, oldest, -, ⟨-, waits⟩ | ⟨next, taken, queued, -, held,
      same, flushed⟩⟩ := booked.round now fuel
    · rw [idle]
      exact ⟨.done pipe.view, booked⟩
    · rw [waits]
      split_ifs
      · exact ⟨.done pipe.view, booked⟩
      · exact ⟨.single (.gap pipe.view key.1), booked_clear booked.returned⟩
    · obtain ⟨path, last⟩ := ih held
      have named := (booked.named key first oldest).2
      have release : VideoReceiver.Release pipe.view
          (pipe.view.takeFrame (pipe.turn key) (native next)).2
          (pipe.view.takeFrame (pipe.turn key) (native next)).1 := by
        have front : pipe.view.completed.lookup key = some (native first) := by
          rw [lookup_view, oldest]
          rfl
        have found : pipe.view.completed.lookup (pipe.turn key) = some (native next) := by
          rw [lookup_view, queued]
          rfl
        have expected : pipe.turn key =
            (key.1, pipe.view.nextFrameId.getD (native first).frameId) := by
          rw [turn, native, named]
          rfl
        rw [expected] at found ⊢
        exact pipe.view.takeFrame_release key (native first) (native next) front found
      rw [← same] at release
      rw [flushed]
      exact ⟨.append (.single release) path, last⟩

theorem Booked.read {pipe : FecDecodePipe} (booked : pipe.Booked) : pipe.read.Booked :=
  ⟨⟨booked.order, booked.named, booked.counted, booked.returned⟩, booked.audited⟩

theorem Booked.decode {pipe : FecDecodePipe} (booked : pipe.Booked) (symbol : Symbol) :
    (pipe.decode symbol).Booked :=
  ⟨⟨booked.order, booked.named, booked.counted, booked.returned⟩,
    booked.audited.congr rfl rfl rfl⟩

/-- The ACK gate reads the clock and keeps its own cadence. -/
theorem tickAck_frame (pipe : FecDecodePipe) (delivered : Bool) (clock : Nat → Int) :
    ∃ count time highest acked readings, pipe.tickAck delivered clock =
      { pipe with
        symbolsSinceAck := count
        lastAckTime := time
        lastAckedHighest := highest
        acked := acked
        readings := readings } := by
  unfold tickAck
  cases pipe.decoder.highestFullyDecoded with
  | none => exact ⟨_, _, _, _, _, rfl⟩
  | some hfd =>
    dsimp only
    cases !pipe.onAck || pipe.lastAckedHighest.any (fun last => !u32Newer hfd last) with
    | true => exact ⟨_, _, _, _, _, rfl⟩
    | false =>
      simp only [Bool.false_eq_true, if_false]
      generalize pipe.symbolsSinceAck + (if delivered then 1 else 0) = count
      split_ifs <;> exact ⟨_, _, _, _, _, rfl⟩

@[simp] theorem tickAck_view (pipe : FecDecodePipe) (delivered : Bool) (clock : Nat → Int) :
    (pipe.tickAck delivered clock).view = pipe.view := by
  obtain ⟨count, time, highest, acked, readings, same⟩ := pipe.tickAck_frame delivered clock
  rw [same]
  rfl

theorem Booked.tickAck {pipe : FecDecodePipe} (booked : pipe.Booked) (delivered : Bool)
    (clock : Nat → Int) : (pipe.tickAck delivered clock).Booked := by
  obtain ⟨count, time, highest, acked, readings, same⟩ := pipe.tickAck_frame delivered clock
  rw [same]
  exact ⟨⟨booked.order, booked.named, booked.counted, booked.returned⟩, booked.audited⟩

-- The chunk that an event brings to reassembly.
def chunkOf (isV2 : Bool) : DecoderEvent → Option Chunk
  | .recovered _ payload _ => readChunk isV2 payload
  | .lossSpan _ _ | .evicted _ _ => none

/-- An event is a path of intake moves, of its own chunk only, that keeps the books. -/
theorem Booked.deliverEvent {pipe : FecDecodePipe} (booked : pipe.Booked) (epoch : UInt32)
    (isV2 : Bool) (clock : Nat → Int) (event : DecoderEvent) :
    Runs.Path (VideoReceiver.Intake epoch isV2 (fun chunk => chunkOf isV2 event = some chunk))
      pipe.view (deliverEvent epoch isV2 clock pipe event).2
      (deliverEvent epoch isV2 clock pipe event).1.view ∧
      (FecDecodePipe.deliverEvent epoch isV2 clock pipe event).1.Booked := by
  cases event with
  | lossSpan | evicted => exact ⟨.single (.discontinue pipe.view _), booked_clear booked.returned⟩
  | recovered seq payload viaFec =>
    simp only [FecDecodePipe.deliverEvent, tickAck_view, deliverChunk]
    cases parsed : readChunk isV2 payload with
    | none => exact ⟨.done pipe.view, booked.tickAck true clock⟩
    | some chunk =>
      obtain ⟨inside, counted⟩ := readChunk_inside parsed
      refine ⟨?_, (booked.admitChunk epoch isV2 viaFec clock inside counted).tickAck true clock⟩
      cases ahead : pipe.behind chunk with
      | true =>
        simp only [FecDecodePipe.admitChunk, ahead, Bool.or_true, if_true]
        exact .done pipe.view
      | false =>
        have same := admitChunk_view pipe epoch isV2 viaFec clock booked.audited booked.counted
          inside ahead
        have path : Runs.Path (VideoReceiver.Intake epoch isV2
            (fun chunk => chunkOf isV2 (.recovered seq payload viaFec) = some chunk)) pipe.view _ _ :=
          pipe.view.admitChunk_path chunk viaFec (pipe.now clock).toNat parsed
        rw [← same] at path
        exact path

-- What `configure` sets.
def settings (pipe : FecDecodePipe) : FecPipeConfig × Bool := (pipe.config, pipe.hasExplicitConfig)

theorem settings_completeFrame (pipe : FecDecodePipe) (key : UInt32 × UInt32)
    (frame : PendingFrame) (clock : Nat → Int) :
    (pipe.completeFrame key frame clock).settings = pipe.settings := by
  rw [completeFrame]
  dsimp only
  split <;> rfl

theorem settings_storePart (pipe : FecDecodePipe) (key : UInt32 × UInt32) (frame : PendingFrame)
    (chunk : Chunk) (viaFec : Bool) (clock : Nat → Int) :
    (pipe.storePart key frame chunk viaFec clock).1.settings = pipe.settings := by
  rw [storePart]
  by_cases full : occupied frame chunk = true
  · rw [if_pos full]
  rw [if_neg full]
  by_cases large : pipe.overBudget chunk = true
  · rw [if_pos large]
    rfl
  rw [if_neg large]
  dsimp only
  split
  · exact settings_completeFrame _ _ _ _
  · rfl

theorem settings_deliverEvent (pipe : FecDecodePipe) (epoch : UInt32) (isV2 : Bool)
    (clock : Nat → Int) (event : DecoderEvent) :
    (deliverEvent epoch isV2 clock pipe event).1.settings = pipe.settings := by
  cases event with
  | lossSpan | evicted => rfl
  | recovered seq payload viaFec =>
    have acked (delivered : FecDecodePipe) :
        (delivered.tickAck true clock).settings = delivered.settings := by
      obtain ⟨count, time, highest, acked, readings, same⟩ := delivered.tickAck_frame true clock
      rw [same]
      rfl
    simp only [deliverEvent, acked, deliverChunk]
    cases readChunk isV2 payload with
    | none => rfl
    | some chunk =>
      dsimp only
      unfold admitChunk
      dsimp only
      cases (pipe.completed.lookup (epoch, chunk.frameId)).isSome || pipe.behind chunk with
      | true => rfl
      | false =>
        simp only [Bool.false_eq_true, if_false]
        cases pipe.pending.lookup (epoch, chunk.frameId) with
        | none =>
          dsimp only
          split_ifs
          · rfl
          · rfl
          · exact settings_storePart _ _ _ _ _ _
        | some frame =>
          dsimp only
          split_ifs
          · rfl
          · exact settings_storePart _ _ _ _ _ _

theorem settings_emitFrame {pipe : FecDecodePipe} {completed : CompletedFrame}
    {emitted : FecDecodePipe × List RxEvent} (given : pipe.emitFrame completed = some emitted) :
    emitted.1.settings = pipe.settings := by
  unfold emitFrame at given
  dsimp only at given
  split at given
  next => cases given
  next =>
    cases given
    rfl
  next =>
    split_ifs at given <;> (cases given; rfl)

theorem settings_flushLoop (now : Int) (fuel : Nat) (pipe : FecDecodePipe) :
    (flushLoop now fuel pipe).1.settings = pipe.settings := by
  induction fuel generalizing pipe with
  | zero => rfl
  | succ fuel ih =>
    unfold flushLoop
    split
    next => rfl
    next =>
      split
      next => rfl
      next =>
        dsimp only
        split
        next =>
          split_ifs <;> rfl
        next next _ =>
          split
          next => rfl
          next taken given =>
            simp only [takeFrame, Option.bind_eq_bind, Option.bind_eq_some_iff] at given
            obtain ⟨emitted, found, same⟩ := given
            cases same
            have kept := settings_emitFrame found
            rw [Runs.andThen, ih]
            exact kept

/-- After the flush of a booked pipe no exception is under way. -/
theorem Booked.flushReorder {pipe : FecDecodePipe} (booked : pipe.Booked) (clock : Nat → Int) :
    Runs.Path VideoReceiver.Release pipe.view (pipe.flushReorder clock).2
      (pipe.flushReorder clock).1.view ∧ (pipe.flushReorder clock).1.Booked :=
  booked.read.flushLoop (pipe.now clock) _

-- Every event that a packet brings meets `guard` as it is delivered.
def Guards (guard : List RxEvent → FecDecodePipe → DecoderEvent → Prop) (seen : List RxEvent)
    (pipe : FecDecodePipe) : PipeCall → Prop
  | .submitPacket buffer clock => ∀ symbol ∈ pipe.symbolOf buffer,
      Runs.Along (deliverEvent pipe.config.epoch pipe.config.isV2 clock) guard seen
        (pipe.decode symbol) (pipe.decoderEvents symbol)
  | .configure _ _ | .tickTimer _ | .pollRequestIdr _ | .setOnAck => True

-- What an invariant of the calls has to survive, apart from the first configuration.
structure Upkeep (guard : List RxEvent → FecDecodePipe → DecoderEvent → Prop)
    (invariant : List RxEvent → VideoReceiver → Prop) : Prop where
  event : ∀ seen (pipe : FecDecodePipe) clock event, pipe.Booked → guard seen pipe event →
    invariant seen pipe.view →
      invariant (seen ++ (deliverEvent pipe.config.epoch pipe.config.isV2 clock pipe event).2)
        (deliverEvent pipe.config.epoch pipe.config.isV2 clock pipe event).1.view
  release : ∀ seen rx emitted next, invariant seen rx → VideoReceiver.Release rx emitted next →
    invariant (seen ++ emitted) next
  relabel : ∀ seen (rx : VideoReceiver) decoder needsIdr, invariant seen rx →
    invariant seen { rx with decoder := decoder, needsIdr := needsIdr }
  restart : ∀ seen (rx : VideoReceiver) epoch, invariant seen rx →
    ∀ other : VideoReceiver,
      invariant (seen ++ [RxEvent.discontinuity epoch .epochTransition]) other.reset

section Rule

variable {guard : List RxEvent → FecDecodePipe → DecoderEvent → Prop}
  {invariant : List RxEvent → VideoReceiver → Prop} {seen : List RxEvent} {pipe : FecDecodePipe}

theorem Upkeep.deliverEvents (upkeep : Upkeep guard invariant) (booked : pipe.Booked)
    (held : invariant seen pipe.view) (clock : Nat → Int) (events : List DecoderEvent)
    (guarded : Runs.Along (deliverEvent pipe.config.epoch pipe.config.isV2 clock) guard seen pipe
      events) :
    (Runs.run (deliverEvent pipe.config.epoch pipe.config.isV2 clock) pipe events).1.Booked ∧
      invariant
        (seen ++ (Runs.run (deliverEvent pipe.config.epoch pipe.config.isV2 clock) pipe events).2)
        (Runs.run (deliverEvent pipe.config.epoch pipe.config.isV2 clock) pipe events).1.view := by
  have kept := Runs.run_invariant (deliverEvent pipe.config.epoch pipe.config.isV2 clock) guard
    (fun seen state => (state.Booked ∧ state.config = pipe.config) ∧ invariant seen state.view) ?_
    seen pipe events ⟨⟨booked, rfl⟩, held⟩ guarded
  · exact ⟨kept.1.1, kept.2⟩
  · rintro seen state event ⟨⟨booked, config⟩, held⟩ met
    have settings := state.settings_deliverEvent pipe.config.epoch pipe.config.isV2 clock event
    have next := upkeep.event seen state clock event booked met held
    rw [config] at next
    exact ⟨⟨(booked.deliverEvent _ _ clock event).2, (congrArg Prod.fst settings).trans config⟩,
      next⟩

theorem Upkeep.flushReorder (upkeep : Upkeep guard invariant) (booked : pipe.Booked)
    (held : invariant seen pipe.view) (clock : Nat → Int) :
    (pipe.flushReorder clock).1.Booked ∧
      invariant (seen ++ (pipe.flushReorder clock).2) (pipe.flushReorder clock).1.view :=
  ⟨(booked.flushReorder clock).2,
    (booked.flushReorder clock).1.keeps invariant upkeep.release seen held⟩

-- Until it is configured the pipe takes version 1.
def Latched (pipe : FecDecodePipe) : Prop := pipe.hasExplicitConfig = false → pipe.config = .v1

theorem Upkeep.configure (upkeep : Upkeep guard invariant) (booked : pipe.Booked)
    (latched : pipe.Latched) (held : invariant seen pipe.view)
    (first : pipe.hasExplicitConfig = false →
      ∀ rx : VideoReceiver, invariant seen { rx.reset with needsIdr := false })
    (request : ConfigRequest) (clock : Nat → Int) :
    (pipe.configure request clock).1.Booked ∧
      invariant (seen ++ (pipe.configure request clock).2)
        (pipe.configure request clock).1.view := by
  unfold FecDecodePipe.configure
  cases request.accepted with
  | none => exact ⟨booked, by simpa using held⟩
  | some config =>
    dsimp only
    split_ifs with fresh changed
    · simp only [Bool.and_eq_true, Bool.not_eq_true'] at fresh
      refine ⟨⟨⟨rfl, by simp [clear], Int.le_refl 0, booked.returned⟩, ?_⟩, ?_⟩
      · exact (pipe.view.audited_reset).congr rfl rfl rfl
      · rw [List.append_nil]
        exact first fresh.1
          { pipe.view with
            decoder := newDecoder, activeEpoch := some config.epoch, lastTimestampUs := 0 }
    · exact ⟨booked_clear booked.returned, upkeep.restart seen _ config.epoch held
        { pipe.view with
          decoder := newDecoder, activeEpoch := some config.epoch, lastTimestampUs := 0 }⟩
    · have same : config = pipe.config := by
        cases explicit : pipe.hasExplicitConfig with
        | true =>
          rw [explicit, Bool.true_and, decide_eq_true_eq, not_not] at changed
          exact changed.symm
        | false =>
          cases config with
          | v1 => exact (latched explicit).symm
          | v2 epoch => simp [explicit, FecPipeConfig.isV2] at fresh
      subst same
      rw [List.append_nil]
      exact ⟨⟨⟨booked.order, booked.named, booked.counted, booked.returned⟩, booked.audited⟩, held⟩

theorem settings_configure (pipe : FecDecodePipe) (request : ConfigRequest) (clock : Nat → Int) :
    (pipe.configure request clock).1.settings = pipe.settings ∨
      (pipe.configure request clock).1.hasExplicitConfig = true := by
  unfold FecDecodePipe.configure
  cases request.accepted with
  | none => exact Or.inl rfl
  | some config =>
    dsimp only
    split_ifs <;> exact Or.inr rfl

theorem settings_call (pipe : FecDecodePipe) (input : PipeCall) :
    (pipe.call input).1.settings = pipe.settings ∨ (pipe.call input).1.hasExplicitConfig = true := by
  cases input with
  | configure request clock => exact settings_configure { pipe with threw := false } request clock
  | submitPacket buffer clock =>
    left
    simp only [call, submitPacket]
    split
    next => rfl
    next symbol _ =>
      have delivered := Runs.run_invariant_of_forall
        (deliverEvent pipe.config.epoch pipe.config.isV2 clock)
        (fun _ state => state.settings = pipe.settings)
        (fun _ state event same => (state.settings_deliverEvent _ _ clock event).trans same) []
        ({ pipe with threw := false }.decode symbol) ({ pipe with threw := false }.decoderEvents symbol)
        rfl
      rw [onSymbol, Runs.andThen, FecDecodePipe.flushReorder, settings_flushLoop]
      exact delivered
  | tickTimer clock =>
    left
    have flushed := settings_flushLoop (clock pipe.readings) pipe.completedOrder.length
      { pipe with threw := false }.read
    simp only [call, tickTimer]
    split_ifs
    · exact flushed
    · obtain ⟨count, time, highest, acked, readings, same⟩ :=
        ({ pipe with threw := false }.flushReorder clock).1.tickAck_frame false clock
      rw [same]
      exact flushed
  | pollRequestIdr | setOnAck => exact Or.inl rfl

theorem Latched.call {pipe : FecDecodePipe} (latched : pipe.Latched) (input : PipeCall) :
    (pipe.call input).1.Latched := by
  intro unset
  obtain same | explicit := pipe.settings_call input
  · obtain ⟨config, flag⟩ := Prod.mk.inj same
    rw [config]
    exact latched (flag.symm.trans unset)
  · rw [explicit] at unset
    cases unset

theorem call_configured {pipe : FecDecodePipe} (configured : pipe.hasExplicitConfig)
    (input : PipeCall) : (pipe.call input).1.hasExplicitConfig := by
  obtain same | explicit := pipe.settings_call input
  · exact (congrArg Prod.snd same).trans configured
  · exact explicit

/-- The rule for invariants of whole calls. -/
theorem Upkeep.call (upkeep : Upkeep guard invariant) (booked : pipe.Booked)
    (latched : pipe.Latched) (held : invariant seen pipe.view)
    (first : pipe.hasExplicitConfig = false →
      ∀ rx : VideoReceiver, invariant seen { rx.reset with needsIdr := false })
    (input : PipeCall) (guarded : pipe.Guards guard seen input) :
    (pipe.call input).1.Booked ∧
      invariant (seen ++ (pipe.call input).2) (pipe.call input).1.view := by
  have started : ({ pipe with threw := false } : FecDecodePipe) = pipe := by
    rw [← booked.returned]
  simp only [FecDecodePipe.call, started]
  cases input with
  | configure request clock => exact upkeep.configure booked latched held first request clock
  | submitPacket buffer clock =>
    simp only [submitPacket]
    cases taken : pipe.symbolOf buffer with
    | none => exact ⟨booked, by simpa using held⟩
    | some symbol =>
      have decoded := upkeep.relabel seen _ (pipe.decode symbol).decoder pipe.needsIdr held
      obtain ⟨delivered, kept⟩ := upkeep.deliverEvents (booked.decode symbol) decoded clock
        (pipe.decoderEvents symbol) (guarded symbol taken)
      obtain ⟨flushed, last⟩ := upkeep.flushReorder delivered kept clock
      rw [List.append_assoc] at last
      exact ⟨flushed, last⟩
  | tickTimer clock =>
    obtain ⟨flushed, kept⟩ := upkeep.flushReorder booked held clock
    simp only [tickTimer, flushed.returned, Bool.false_eq_true, if_false, tickAck_view]
    exact ⟨flushed.tickAck false clock, kept⟩
  | pollRequestIdr base =>
    have polled := upkeep.relabel seen _ pipe.decoder false held
    rw [List.append_nil]
    exact ⟨⟨⟨booked.order, booked.named, booked.counted, booked.returned⟩,
      booked.audited.congr rfl rfl rfl⟩, polled⟩
  | setOnAck =>
    rw [List.append_nil]
    exact ⟨⟨⟨booked.order, booked.named, booked.counted, rfl⟩, booked.audited⟩, held⟩

/-- The rule for invariants that every move of the receiver keeps. -/
theorem upkeep_of_moves
    (intake : ∀ seen rx epoch isV2 chunks emitted next, rx.activeEpoch = some epoch →
      invariant seen rx → VideoReceiver.Intake epoch isV2 chunks rx emitted next →
      invariant (seen ++ emitted) next)
    (release : ∀ seen rx emitted next, invariant seen rx → VideoReceiver.Release rx emitted next →
      invariant (seen ++ emitted) next)
    (relabel : ∀ seen (rx : VideoReceiver) decoder needsIdr, invariant seen rx →
      invariant seen { rx with decoder := decoder, needsIdr := needsIdr })
    (restart : ∀ seen (rx : VideoReceiver) epoch, invariant seen rx → ∀ other : VideoReceiver,
      invariant (seen ++ [RxEvent.discontinuity epoch .epochTransition]) other.reset) :
    Upkeep (fun _ _ _ => True) invariant := by
  refine ⟨fun seen pipe clock event booked _ held => ?_, release, relabel, restart⟩
  have path := (booked.deliverEvent pipe.config.epoch pipe.config.isV2 clock event).1
  have kept := path.keeps
    (fun seen rx => invariant seen rx ∧ rx.activeEpoch = some pipe.config.epoch)
    (fun seen rx emitted next held move =>
      ⟨intake seen rx _ _ _ emitted next held.2 held.1 move, move.activeEpoch.trans held.2⟩)
    seen ⟨held, rfl⟩
  exact kept.1

theorem guards_true (seen : List RxEvent) (pipe : FecDecodePipe) (input : PipeCall) :
    pipe.Guards (fun _ _ _ => True) seen input := by
  cases input with
  | submitPacket buffer clock =>
    intro symbol _
    exact Runs.along_of_forall (fun _ _ _ _ => trivial) _ _
  | configure | tickTimer | pollRequestIdr | setOnAck => trivial

end Rule

end FecDecodePipe

end Web

end BetterParsec
