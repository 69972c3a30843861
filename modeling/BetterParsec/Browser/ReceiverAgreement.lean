import BetterParsec.Browser.PipeOrder

set_option autoImplicit false
set_option linter.all false

/-!
# Receiver and pipe side by side

The receiver of `video_rx.rs` and the pipe of `fec_decode_pipe.ts` on the same
messages. They treat four things differently: a source that holds no chunk, a
chunk that comes before a loss in one batch, a chunk of a frame behind the
anchor, and a delta frame before the first key frame. Where none of these
occurs they submit the same frames in the same calls.
-/

namespace BetterParsec

namespace VideoReceiver

-- What reassembly reads, with the gate of `left` possibly still closed by its configuration; then
-- only key frames are pending.
structure Alike (left right : VideoReceiver) : Prop where
  pending : left.pending = right.pending
  completed : left.completed = right.completed
  bufferedBytes : left.bufferedBytes = right.bufferedBytes
  nextFrameId : left.nextFrameId = right.nextFrameId
  lastTimestampUs : left.lastTimestampUs = right.lastTimestampUs
  gate : left.awaitingIdr = right.awaitingIdr ∨
    right.awaitingIdr = false ∧ ∀ key frame, left.pending.lookup key = some frame → frame.isKey

-- The outputs are the same, and the states are alike.
def Agree (left right : VideoReceiver × List RxEvent) : Prop :=
  left.2 = right.2 ∧ left.1.Alike right.1

variable {left right : VideoReceiver}

theorem Alike.reset (alike : left.Alike right) : left.reset.Alike right.reset :=
  ⟨rfl, rfl, rfl, rfl, alike.lastTimestampUs, Or.inl rfl⟩

theorem Alike.ackEvents (alike : left.Alike right) (nowMs : Nat) :
    left.Alike (right.ackEvents nowMs).1 := by
  obtain ⟨⟨count, time, highest, state⟩, -⟩ := right.ackEvents_frame nowMs
  rw [state]
  exact ⟨alike.pending, alike.completed, alike.bufferedBytes, alike.nextFrameId,
    alike.lastTimestampUs, alike.gate⟩

theorem Alike.completeFrame (alike : left.Alike right) {key : UInt32 × UInt32}
    {frame : PendingFrame} (held : left.pending.lookup key = some frame) (nowMs : Nat) :
    (left.completeFrame key frame nowMs).Alike (right.completeFrame key frame nowMs) := by
  have remaining (keyed : ∀ key frame, left.pending.lookup key = some frame → frame.isKey)
      (other : UInt32 × UInt32) (found : PendingFrame)
      (lookup : (left.pending.erase key).lookup other = some found) : found.isKey :=
    keyed other found ((Assoc.lookup_erase_some _ _ _ _).mp lookup).2
  unfold VideoReceiver.completeFrame
  obtain same | ⟨released, keyed⟩ := alike.gate
  · rw [same]
    cases gated : right.awaitingIdr && !frame.isKey with
    | true =>
      simp only [if_true]
      refine ⟨?_, alike.completed, ?_, ?_, alike.lastTimestampUs, Or.inl same⟩
      · simp only [dropFrame, alike.pending]
      · simp only [dropFrame, alike.bufferedBytes]
      · simp only [dropFrame, alike.nextFrameId]
    | false =>
      simp only [Bool.false_eq_true, if_false]
      refine ⟨?_, ?_, alike.bufferedBytes, alike.nextFrameId, alike.lastTimestampUs, Or.inl ?_⟩
      · simp only [queueFrame, alike.pending]
      · simp only [queueFrame, alike.completed]
      · simp only [queueFrame, same]
  · have isKey : frame.isKey = true := keyed key frame held
    simp only [isKey, Bool.not_true, Bool.and_false, Bool.false_eq_true, if_false]
    refine ⟨?_, ?_, alike.bufferedBytes, alike.nextFrameId, alike.lastTimestampUs, Or.inl ?_⟩
    · simp only [queueFrame, alike.pending]
    · simp only [queueFrame, alike.completed]
    · simp only [queueFrame, isKey, if_true]

theorem Alike.storeChunk (alike : left.Alike right) {key : UInt32 × UInt32} {frame : PendingFrame}
    (held : left.pending.lookup key = some frame) (isV2 : Bool) (chunk : Chunk) (viaFec : Bool)
    (nowMs : Nat) :
    Agree (left.storeChunk key frame isV2 chunk viaFec nowMs)
      (right.storeChunk key frame isV2 chunk viaFec nowMs) := by
  have full : left.bufferFull chunk.fragment = right.bufferFull chunk.fragment := by
    rw [bufferFull, bufferFull, alike.bufferedBytes]
  have grown : (left.updatePending key (frame.store chunk viaFec) chunk.fragment.length).Alike
      (right.updatePending key (frame.store chunk viaFec) chunk.fragment.length) := by
    refine ⟨?_, alike.completed, ?_, alike.nextFrameId, alike.lastTimestampUs, ?_⟩
    · simp only [updatePending, alike.pending]
    · simp only [updatePending, alike.bufferedBytes]
    · refine alike.gate.imp_right fun gate => ⟨gate.1, fun other found lookup => ?_⟩
      simp only [updatePending, Assoc.lookup_insert_some] at lookup
      obtain ⟨rfl, rfl⟩ | ⟨-, lookup⟩ := lookup
      · exact gate.2 other frame held
      · exact gate.2 other found lookup
  unfold VideoReceiver.storeChunk
  rw [full]
  split_ifs
  · exact ⟨rfl, alike.reset⟩
  · exact ⟨rfl, alike⟩
  · exact ⟨rfl, alike.reset⟩
  · dsimp only
    split_ifs
    · exact ⟨rfl, grown⟩
    · exact ⟨rfl, grown.completeFrame (AList.lookup_insert _) nowMs⟩

theorem Alike.openPending (alike : left.Alike right) (key : UInt32 × UInt32) (frame : PendingFrame)
    (opens : left.awaitingIdr → right.awaitingIdr = false → frame.isKey) :
    (left.openPending key frame).Alike (right.openPending key frame) := by
  have pending : (left.openPending key frame).pending = (right.openPending key frame).pending := by
    simp only [VideoReceiver.openPending, alike.pending]
  by_cases same : left.awaitingIdr = right.awaitingIdr
  · refine ⟨pending, alike.completed, alike.bufferedBytes, ?_, alike.lastTimestampUs, Or.inl same⟩
    simp only [VideoReceiver.openPending, alike.nextFrameId, same]
  · obtain equal | ⟨released, keyed⟩ := alike.gate
    · exact absurd equal same
    have isKey : frame.isKey = true := opens (by simpa [released] using same) released
    refine ⟨pending, alike.completed, alike.bufferedBytes, ?_, alike.lastTimestampUs,
      Or.inr ⟨released, fun other found lookup => ?_⟩⟩
    · simp only [VideoReceiver.openPending, alike.nextFrameId, isKey, Bool.or_true]
    · simp only [VideoReceiver.openPending, Assoc.lookup_insert_some] at lookup
      obtain ⟨rfl, rfl⟩ | ⟨-, lookup⟩ := lookup
      · exact isKey
      · exact keyed other found lookup

theorem Alike.admitChunk (alike : left.Alike right) (epoch : UInt32) (isV2 : Bool) (chunk : Chunk)
    (viaFec : Bool) (nowMs : Nat)
    (opens : left.awaitingIdr → right.awaitingIdr = false → chunk.isKey = false →
      (left.pending.lookup (epoch, chunk.frameId)).isSome) :
    Agree (left.admitChunk epoch isV2 chunk viaFec nowMs)
      (right.admitChunk epoch isV2 chunk viaFec nowMs) := by
  have full : left.bufferFull chunk.fragment = right.bufferFull chunk.fragment := by
    rw [bufferFull, bufferFull, alike.bufferedBytes]
  unfold VideoReceiver.admitChunk
  rw [full, ← alike.completed, ← alike.pending]
  dsimp only
  cases (left.completed.lookup (epoch, chunk.frameId)).isSome with
  | true => exact ⟨rfl, alike⟩
  | false =>
    simp only [Bool.false_eq_true, if_false]
    cases held : left.pending.lookup (epoch, chunk.frameId) with
    | some frame => exact alike.storeChunk held isV2 chunk viaFec nowMs
    | none =>
      dsimp only
      split_ifs
      · exact ⟨rfl, alike.reset⟩
      · exact ⟨rfl, alike.reset⟩
      · have keyed (awaiting : left.awaitingIdr) (released : right.awaitingIdr = false) :
            (chunk.openFrame isV2).isKey := by
          by_contra delta
          have pending := opens awaiting released (by simpa [Chunk.openFrame] using delta)
          simp [held] at pending
        exact (alike.openPending _ _ keyed).storeChunk (AList.lookup_insert _) isV2 chunk viaFec nowMs

theorem Alike.takeFrame (alike : left.Alike right) (expected : UInt32 × UInt32)
    (found : CompletedFrame) :
    Agree (left.takeFrame expected found) (right.takeFrame expected found) := by
  unfold VideoReceiver.takeFrame assembleFrame
  cases PendingFrame.joinParts found.frame.parts with
  | none =>
    refine ⟨rfl, alike.pending, ?_, alike.bufferedBytes, rfl, alike.lastTimestampUs, alike.gate⟩
    simp only [alike.completed]
  | some data =>
    cases intact : found.frame.intact found.frameId data with
    | false =>
      simp only [intact, Bool.not_false, if_true]
      exact ⟨rfl, rfl, rfl, rfl, rfl, alike.lastTimestampUs, Or.inl rfl⟩
    | true =>
      simp only [intact, Bool.not_true, Bool.false_eq_true, if_false]
      refine ⟨?_, alike.pending, ?_, ?_, rfl, rfl, alike.gate⟩
      · simp only [alike.lastTimestampUs]
      · simp only [alike.completed]
      · simp only [alike.bufferedBytes]

theorem Alike.flushLoop (alike : left.Alike right) (nowMs fuel : Nat) :
    Agree (flushLoop nowMs fuel left) (flushLoop nowMs fuel right) := by
  induction fuel generalizing left right with
  | zero => exact ⟨rfl, alike⟩
  | succ fuel ih =>
    unfold VideoReceiver.flushLoop
    rw [alike.completed, alike.nextFrameId]
    split
    next => exact ⟨rfl, alike⟩
    next key first _ =>
      dsimp only
      split
      next =>
        split_ifs
        · exact ⟨rfl, alike⟩
        · exact ⟨rfl, alike.reset⟩
      next found _ =>
        obtain ⟨output, taken⟩ := alike.takeFrame (key.1, right.nextFrameId.getD first.frameId) found
        obtain ⟨later, last⟩ := ih taken
        exact ⟨congrArg₂ _ output later, last⟩

end VideoReceiver

namespace Web

/-- A payload brings the pipe the chunk that it brings the receiver. -/
theorem readChunk_native (payload : List UInt8) :
    readChunk true payload =
      (parseChunk true payload).filter (fun chunk => chunk.wellFormed true) := by
  cases read : parseChunkV2Bytes payload with
  | none =>
    have refused : ¬HoldsChunk payload := by
      rw [← parseChunkV2Bytes_isSome_iff, read]
      decide
    rw [readChunk, if_pos rfl, read, Eq.comm, Option.filter_eq_none_iff]
    intro chunk parsed wellFormed
    exact refused ⟨chunk, parsed, wellFormed⟩
  | some hdr =>
    have held : HoldsChunk payload := by
      rw [← parseChunkV2Bytes_isSome_iff, read]
      rfl
    obtain ⟨chunk, parsed, wellFormed⟩ := held
    rw [parsed, Option.filter_some, if_pos wellFormed]
    rw [parseChunk, if_pos rfl] at parsed
    split at parsed
    next => cases parsed
    next header fragment accepted =>
      obtain ⟨long, known, valid, rfl, rfl⟩ := (parseChunkV2_ok_iff payload _ _).mp accepted
      cases parsed
      obtain ⟨count, inside, fits, short⟩ := (validateChunkV2_ok_iff _ _).mp valid
      have equations :=
        (wellFormed_iff _ (by exact inside) (by exact count.2) (by exact fits)).mp wellFormed
      have header : hdr = ⟨u32At payload 0, u16At payload 4, u16At payload 6, payload.getD 8 0,
          u32At payload 9, u32At payload 13, u32At payload 17⟩ := by
        simp only [parseChunkV2Bytes] at read
        split_ifs at read
        exact (Option.some.inj read).symm
      subst header
      have acceptable : acceptableHeader (payload.getD 8 0) (u16At payload 4) (u16At payload 6) := by
        have counted := count
        simp only [readChunkV2Header] at counted inside
        simp only [acceptableHeader, Bool.not_eq_true', Bool.or_eq_false_iff,
          decide_eq_false_iff_not, gt_iff_lt, ge_iff_le, UInt8.lt_iff_toNat_lt,
          UInt16.le_iff_toNat_le, ← UInt16.toNat_inj, UInt16.toNat_zero, chunkCountMax]
        exact ⟨⟨⟨Nat.not_lt.mpr known, by omega⟩, by omega⟩, by omega⟩
      have measured : measures ⟨u32At payload 0, u16At payload 4, u16At payload 6, payload.getD 8 0,
          u32At payload 9, u32At payload 13, u32At payload 17⟩ (payload.drop 21) := by
        obtain ⟨counted, sized⟩ := (chunk_numbers _ _ _ _ inside count.2 fits).mpr equations
        have ceiling (length : Nat) :
            ceilDiv (max length 1) 1164 = max 1 (ceilDiv length 1164) :=
          (max_one_ceilDiv length (by decide)).symm
        have small : ¬(u32At payload 13).toNat > 4 * 1024 * 1024 := Nat.not_lt.mpr fits
        simp only [measures, frameMaxBytes, chunkV2FragmentMax, ceiling, Bool.not_eq_true',
          Bool.or_eq_false_iff]
        exact ⟨⟨decide_eq_false small, decide_eq_false (not_not_intro counted)⟩,
          decide_eq_false (not_not_intro sized)⟩
      rw [readChunk, if_pos rfl, read]
      simp only [chunkHeaderV2Size, acceptable, measured, Bool.and_self, if_true]
      rfl

namespace FecDecodePipe

-- The queued frames were completed at readings that the receiver can be given.
def Timed (pipe : FecDecodePipe) : Prop :=
  ∀ key found, pipe.completed.lookup key = some found → 0 ≤ found.completedAt

-- The clock stands at `nowMs` during a call.
def reading (nowMs : Nat) : Nat → Int := fun _ => nowMs

theorem timed_clear (pipe : FecDecodePipe) : pipe.clear.Timed := by
  simp [Timed, clear]

theorem Timed.completeFrame {pipe : FecDecodePipe} (timed : pipe.Timed) (key : UInt32 × UInt32)
    (frame : PendingFrame) (nowMs : Nat) :
    (pipe.completeFrame key frame (reading nowMs)).Timed := by
  rw [FecDecodePipe.completeFrame]
  dsimp only
  split
  · exact timed
  · intro other found queued
    simp only [Assoc.lookup_insert_some] at queued
    obtain ⟨rfl, rfl⟩ | ⟨-, queued⟩ := queued
    · exact Int.natCast_nonneg nowMs
    · exact timed other found queued

theorem Timed.storePart {pipe : FecDecodePipe} (timed : pipe.Timed) (key : UInt32 × UInt32)
    (frame : PendingFrame) (chunk : Chunk) (viaFec : Bool) (nowMs : Nat) :
    (pipe.storePart key frame chunk viaFec (reading nowMs)).1.Timed := by
  rw [FecDecodePipe.storePart]
  by_cases full : occupied frame chunk = true
  · rw [if_pos full]
    exact timed
  rw [if_neg full]
  by_cases large : pipe.overBudget chunk = true
  · rw [if_pos large]
    exact pipe.timed_clear
  rw [if_neg large]
  dsimp only
  split
  · refine Timed.completeFrame ?_ key _ nowMs
    exact timed
  · exact timed

theorem Timed.admitChunk {pipe : FecDecodePipe} (timed : pipe.Timed) (epoch : UInt32) (isV2 : Bool)
    (chunk : Chunk) (viaFec : Bool) (nowMs : Nat) :
    (pipe.admitChunk epoch isV2 chunk viaFec (reading nowMs)).1.Timed := by
  unfold FecDecodePipe.admitChunk
  dsimp only
  cases (pipe.completed.lookup (epoch, chunk.frameId)).isSome || pipe.behind chunk with
  | true => exact timed
  | false =>
    simp only [Bool.false_eq_true, if_false]
    cases pipe.pending.lookup (epoch, chunk.frameId) with
    | none =>
      dsimp only
      split_ifs
      · exact pipe.timed_clear
      · exact pipe.timed_clear
      · exact Timed.storePart (show (pipe.openPending _ _).Timed from timed) _ _ _ _ _
    | some frame =>
      dsimp only
      split_ifs
      · exact pipe.timed_clear
      · exact timed.storePart _ _ _ _ _

theorem Timed.takeFrame {pipe : FecDecodePipe} (timed : pipe.Timed) {key : UInt32 × UInt32}
    {next : CompletedFrame} {taken : FecDecodePipe × List RxEvent}
    (given : pipe.takeFrame key next = some taken) : taken.1.Timed := by
  have removed : (pipe.removeCompleted key).Timed := by
    intro other found queued
    exact timed other found ((Assoc.lookup_erase_some _ _ _ _).mp queued).2
  simp only [FecDecodePipe.takeFrame, Option.bind_eq_bind, Option.bind_eq_some_iff] at given
  obtain ⟨emitted, found, same⟩ := given
  cases same
  unfold emitFrame at found
  dsimp only at found
  split at found
  next => cases found
  next =>
    cases found
    exact removed
  next =>
    split_ifs at found
    · cases found
      exact pipe.timed_clear
    · cases found
      exact removed

/-- At the receiver's readings a flush of the pipe is a flush of the receiver. -/
theorem flushLoop_view {pipe : FecDecodePipe} (booked : pipe.Booked) (timed : pipe.Timed)
    (nowMs fuel : Nat) :
    Prod.map view id (flushLoop nowMs fuel pipe) = VideoReceiver.flushLoop nowMs fuel pipe.view ∧
      (flushLoop nowMs fuel pipe).1.Timed := by
  induction fuel generalizing pipe with
  | zero => exact ⟨rfl, timed⟩
  | succ fuel ih =>
    obtain ⟨empty, idle⟩ | ⟨key, first, oldest, last, course⟩ := booked.round nowMs fuel
    · rw [idle, VideoReceiver.flushLoop, empty]
      exact ⟨rfl, timed⟩
    have expected : (key.1, pipe.view.nextFrameId.getD (native first).frameId) = pipe.turn key := by
      rw [turn, native, (booked.named key first oldest).2]
      rfl
    rw [VideoReceiver.flushLoop, last]
    dsimp only
    rw [expected, lookup_view]
    obtain ⟨absent, waits⟩ | ⟨next, taken, queued, given, held, same, flushed⟩ := course
    · have early : ((nowMs : Int) - first.completedAt < reorderMaxWaitMs) ↔
          nowMs - (native first).completedAtMs < BetterParsec.reorderMaxWaitMs := by
        have stamped := timed key first oldest
        simp only [native, reorderMaxWaitMs, BetterParsec.reorderMaxWaitMs]
        omega
      have few : pipe.completed.size ≤ maxCompletedFrames ↔
          pipe.view.completed.size ≤ reorderMaxCompletedFrames := by
        rw [size_view]
        rfl
      rw [absent, waits, Option.map_none]
      simp only [early, few]
      split_ifs
      · exact ⟨rfl, timed⟩
      · exact ⟨rfl, pipe.timed_clear⟩
    · obtain ⟨viewed, stamped⟩ := ih held (timed.takeFrame given)
      rw [queued, Option.map_some, flushed]
      refine ⟨?_, stamped⟩
      dsimp only
      rw [← same, Runs.andThen, Runs.andThen, Prod.map_apply, Prod.map_apply, ← viewed]
      rfl

end FecDecodePipe

-- A receiver and a pipe that are fed side by side.
structure Mirror where
  rx : VideoReceiver
  pipe : FecDecodePipe

inductive MirrorCall where
  | message (buf : List UInt8) (nowMs : Nat)
  | tick (nowMs : Nat)

-- The frames of an output, as the decoder gets them.
def frames (output : List RxEvent) : List (List UInt8 × Bool × UInt32) :=
  output.filterMap fun
    | .frame unit => some (unit.data, unit.isKey, unit.timestampUs)
    | .discontinuity _ _ | .ack _ => none

theorem frames_append (first second : List RxEvent) :
    frames (first ++ second) = frames first ++ frames second :=
  List.filterMap_append

theorem frames_silent {output : List RxEvent}
    (silent : ∀ event ∈ output, ∀ unit, event ≠ .frame unit) : frames output = [] := by
  rw [frames, List.filterMap_eq_nil_iff]
  intro event member
  cases event with
  | frame unit => exact absurd rfl (silent _ member unit)
  | discontinuity | ack => rfl

theorem frames_intake {epoch : UInt32} {isV2 : Bool} {chunks : Chunk → Prop}
    {rx next : VideoReceiver} {output : List RxEvent}
    (path : Runs.Path (VideoReceiver.Intake epoch isV2 chunks) rx output next) :
    frames output = [] := by
  have kept := path.keeps (fun seen _ => frames seen = []) ?_ [] rfl
  · simpa using kept
  · intro seen state emitted next silent move
    rw [frames_append, silent, frames_silent move.no_frame, List.nil_append]

-- The message, if it is one of version 2.
def v2Message (buf : List UInt8) : Option SymbolMessage :=
  match parseSymbolMsgVersioned buf with
  | .ok (.v2 symbol) => some (VideoReceiver.symbolOf (.v2 symbol))
  | .ok (.v1 _) | .error _ => none

namespace Mirror

-- Each call adds what the receiver emitted and what the pipe did.
def call (pair : Mirror) : MirrorCall → Mirror × List (List RxEvent × List RxEvent)
  | .message buf nowMs =>
      let native := pair.rx.onMessage buf nowMs
      let web := pair.pipe.call (.submitPacket buf (FecDecodePipe.reading nowMs))
      (⟨native.1, web.1⟩, [(native.2, web.2)])
  | .tick nowMs =>
      let native := pair.rx.tickEvents nowMs
      let web := pair.pipe.call (.tickTimer (FecDecodePipe.reading nowMs))
      (⟨native.1, web.1⟩, [(native.2, web.2)])

def start (epoch : UInt32) (onAck : Bool) (nowMs : Nat) : Mirror :=
  let reading := FecDecodePipe.reading nowMs
  { rx := .new nowMs
    pipe := ((FecDecodePipe.new onAck reading).call (.configure (.v2 epoch.toNat) reading)).1 }

-- The messages are of version 2 and of one epoch, and for each of them the two FEC decoders return
-- the same events.
def Fed (epoch : UInt32) (pair : Mirror) : MirrorCall → Prop
  | .message buf _ => ∃ message ∈ v2Message buf, message.epoch = epoch ∧
      (pair.rx.decoder.pushSymbol message.symbol).2 = pair.pipe.decoderEvents message.symbol
  | .tick _ => True

-- One event of a batch reaches both.
def deliver (epoch : UInt32) (nowMs : Nat) (pair : Mirror) (event : DecoderEvent) :
    Mirror × List Unit :=
  (⟨(VideoReceiver.deliverEvent epoch true nowMs pair.rx event).1,
    (FecDecodePipe.deliverEvent epoch true (FecDecodePipe.reading nowMs) pair.pipe event).1⟩, [])

-- Receiver and pipe as the first event of a message reaches them.
def enter (pair : Mirror) (message : SymbolMessage) : Mirror :=
  let entered := { pair.rx with activeEpoch := some message.epoch }
  ⟨((entered.decode message.symbol).discontinueOnLoss message.epoch
    (pair.rx.decoder.pushSymbol message.symbol).2).1, pair.pipe.decode message.symbol⟩

-- The chunk of the event is of a queued frame, or it is not behind the anchor and opens no delta
-- frame before the first key frame.
def Mutual (epoch : UInt32) (pair : Mirror) (event : DecoderEvent) : Prop :=
  ∀ chunk ∈ FecDecodePipe.chunkOf true event,
    (pair.pipe.completed.lookup (epoch, chunk.frameId)).isSome ∨
      pair.pipe.behind chunk = false ∧
        (pair.pipe.awaitingIdr → pair.rx.awaitingIdr = false → chunk.isKey = false →
          (pair.pipe.pending.lookup (epoch, chunk.frameId)).isSome)

-- No chunk comes before a loss.
def lossesLead (events : List DecoderEvent) : Bool :=
  (events.dropWhile (fun event => (FecDecodePipe.chunkOf true event).isNone)).all (!·.isLoss)

-- The message is none of those that receiver and pipe treat differently.
def Plain (pair : Mirror) : MirrorCall → Prop
  | .message buf nowMs => (parseSymbolMessage buf).isSome ∧ ∀ message ∈ v2Message buf,
      lossesLead (pair.pipe.decoderEvents message.symbol) ∧
        Runs.Along (deliver message.epoch nowMs) (fun _ pair event => pair.Mutual message.epoch event)
          [] (pair.enter message) (pair.pipe.decoderEvents message.symbol)
  | .tick _ => True

-- The simulation between two calls.
structure Mirrors (epoch : UInt32) (pair : Mirror) : Prop where
  booked : pair.pipe.Booked
  config : pair.pipe.config = .v2 epoch
  timed : pair.pipe.Timed
  alike : pair.pipe.view.Alike pair.rx

/-- The receiver delivers the chunk that the pipe reads. -/
theorem deliverChunk_read (rx : VideoReceiver) (epoch : UInt32) (payload : List UInt8)
    (viaFec : Bool) (nowMs : Nat) :
    rx.deliverChunk epoch true payload viaFec nowMs =
      match readChunk true payload with
      | none => (rx, [])
      | some chunk => rx.admitChunk epoch true chunk viaFec nowMs := by
  rw [readChunk_native, VideoReceiver.deliverChunk]
  cases parseChunk true payload with
  | none => rfl
  | some chunk =>
    rw [Option.filter_some]
    dsimp only
    cases chunk.wellFormed true <;> rfl

theorem timed_tickAck {pipe : FecDecodePipe} (timed : pipe.Timed) (clock : Nat → Int) :
    (pipe.tickAck true clock).Timed := by
  obtain ⟨count, time, highest, acked, readings, same⟩ := pipe.tickAck_frame true clock
  rw [same]
  exact timed

/-- What a recovered payload does to both, up to the ACK gate. -/
theorem Mirrors.deliverChunk {epoch : UInt32} {pair : Mirror} (mirrors : pair.Mirrors epoch)
    (nowMs : Nat) {seq : UInt32} {payload : Payload} {viaFec : Bool}
    (allowed : pair.Mutual epoch (.recovered seq payload viaFec)) :
    (pair.pipe.deliverChunk epoch true payload viaFec (FecDecodePipe.reading nowMs)).1.Timed ∧
      (pair.pipe.deliverChunk epoch true payload viaFec (FecDecodePipe.reading nowMs)).1.view.Alike
        (pair.rx.deliverChunk epoch true payload viaFec nowMs).1 := by
  rw [deliverChunk_read, FecDecodePipe.deliverChunk]
  cases read : readChunk true payload with
  | none => exact ⟨mirrors.timed, mirrors.alike⟩
  | some chunk =>
    refine ⟨mirrors.timed.admitChunk epoch true chunk viaFec nowMs, ?_⟩
    obtain queued | ⟨ahead, opens⟩ := allowed chunk read
    · have held : (pair.rx.completed.lookup (epoch, chunk.frameId)).isSome := by
        rw [← mirrors.alike.completed, FecDecodePipe.lookup_view, Option.isSome_map]
        exact queued
      simp only [FecDecodePipe.admitChunk, VideoReceiver.admitChunk, queued, held, Bool.true_or,
        if_true]
      exact mirrors.alike
    · have same := pair.pipe.admitChunk_view epoch true viaFec (FecDecodePipe.reading nowMs)
        mirrors.booked.audited mirrors.booked.counted (readChunk_inside read).1 ahead
      have now : (pair.pipe.now (FecDecodePipe.reading nowMs)).toNat = nowMs := Int.toNat_natCast _
      have agree := mirrors.alike.admitChunk epoch true chunk viaFec nowMs opens
      rw [now] at same
      rw [← same] at agree
      exact agree.2

theorem Mirrors.recovered {epoch : UInt32} {pair : Mirror} (mirrors : pair.Mirrors epoch)
    (nowMs : Nat) {seq : UInt32} {payload : Payload} {viaFec : Bool}
    (allowed : pair.Mutual epoch (.recovered seq payload viaFec)) :
    (pair.deliver epoch nowMs (.recovered seq payload viaFec)).1.Mirrors epoch := by
  obtain ⟨timed, alike⟩ := mirrors.deliverChunk nowMs allowed
  have settings := pair.pipe.settings_deliverEvent epoch true (FecDecodePipe.reading nowMs)
    (.recovered seq payload viaFec)
  refine ⟨(mirrors.booked.deliverEvent epoch true _ _).2,
    (congrArg Prod.fst settings).trans mirrors.config, timed_tickAck timed _, ?_⟩
  simp only [deliver, FecDecodePipe.deliverEvent, FecDecodePipe.tickAck_view,
    VideoReceiver.deliverEvent, Runs.andThen]
  exact alike.ackEvents nowMs

-- The simulation within a batch: where a loss is still to come, the receiver has been reset for
-- it and the pipe has not.
structure Awaits (epoch : UInt32) (events : List DecoderEvent) (pair : Mirror) : Prop where
  booked : pair.pipe.Booked
  config : pair.pipe.config = .v2 epoch
  timed : pair.pipe.Timed
  alike : if events.any DecoderEvent.isLoss then pair.pipe.view.reset.Alike pair.rx
    else pair.pipe.view.Alike pair.rx

theorem lossesLead_cons_none {event : DecoderEvent} {later : List DecoderEvent}
    (empty : FecDecodePipe.chunkOf true event = none) :
    lossesLead (event :: later) = lossesLead later := by
  rw [lossesLead, lossesLead, List.dropWhile_cons_of_pos (by rw [empty]; rfl)]

theorem lossesLead_cons_some {event : DecoderEvent} {later : List DecoderEvent} {chunk : Chunk}
    (brings : FecDecodePipe.chunkOf true event = some chunk)
    (leading : lossesLead (event :: later)) :
    (event :: later).any DecoderEvent.isLoss = false ∧ lossesLead later := by
  rw [lossesLead, List.dropWhile_cons_of_neg (by simp [brings])] at leading
  simp only [List.all_cons, Bool.and_eq_true, List.all_eq_true, Bool.not_eq_true'] at leading
  constructor
  · rw [List.any_cons, leading.1, Bool.false_or, List.any_eq_false]
    intro other member lost
    simp [leading.2 other member] at lost
  · rw [lossesLead, List.all_eq_true]
    intro other member
    rw [leading.2 other ((List.dropWhile_sublist _).subset member)]
    rfl

/-- A loss reaches the pipe, for which the receiver has been reset before. -/
theorem Awaits.lose {epoch : UInt32} {pair : Mirror} {event : DecoderEvent}
    {later : List DecoderEvent} (awaits : pair.Awaits epoch (event :: later))
    (lost : event.isLoss) : Awaits epoch later ⟨pair.rx, pair.pipe.clear⟩ := by
  have alike : pair.pipe.view.reset.Alike pair.rx := by
    have held := awaits.alike
    rwa [List.any_cons, lost, Bool.true_or, if_pos rfl] at held
  refine ⟨FecDecodePipe.booked_clear awaits.booked.returned, awaits.config,
    pair.pipe.timed_clear, ?_⟩
  split_ifs <;> exact alike

/-- A payload that holds no chunk only ticks the ACK gates. -/
theorem Awaits.skip {epoch : UInt32} {pair : Mirror} {seq : UInt32} {payload : Payload}
    {viaFec : Bool} {later : List DecoderEvent}
    (awaits : pair.Awaits epoch (.recovered seq payload viaFec :: later)) (nowMs : Nat)
    (empty : readChunk true payload = none) :
    (pair.deliver epoch nowMs (.recovered seq payload viaFec)).1.Awaits epoch later := by
  have unread : pair.rx.deliverChunk epoch true payload viaFec nowMs = (pair.rx, []) := by
    rw [deliverChunk_read, empty]
  have alike := awaits.alike
  rw [List.any_cons, DecoderEvent.isLoss, Bool.false_or] at alike
  simp only [deliver, FecDecodePipe.deliverEvent, FecDecodePipe.deliverChunk, empty,
    VideoReceiver.deliverEvent, Runs.andThen, unread]
  have settings := pair.pipe.settings_deliverEvent epoch true (FecDecodePipe.reading nowMs)
    (.recovered seq payload viaFec)
  simp only [FecDecodePipe.deliverEvent, FecDecodePipe.deliverChunk, empty] at settings
  refine ⟨awaits.booked.tickAck true _, (congrArg Prod.fst settings).trans awaits.config,
    timed_tickAck awaits.timed _, ?_⟩
  simp only [FecDecodePipe.tickAck_view]
  split_ifs at alike ⊢ <;> exact alike.ackEvents nowMs

theorem Awaits.deliver {epoch : UInt32} {pair : Mirror} {event : DecoderEvent}
    {later : List DecoderEvent} (awaits : pair.Awaits epoch (event :: later)) (nowMs : Nat)
    (leading : lossesLead (event :: later)) (allowed : pair.Mutual epoch event) :
    (pair.deliver epoch nowMs event).1.Awaits epoch later ∧ lossesLead later := by
  cases brings : FecDecodePipe.chunkOf true event with
  | none =>
    rw [lossesLead_cons_none brings] at leading
    refine ⟨?_, leading⟩
    cases event with
    | lossSpan | evicted => exact awaits.lose rfl
    | recovered seq payload viaFec => exact awaits.skip nowMs brings
  | some chunk =>
    obtain ⟨clean, rest⟩ := lossesLead_cons_some brings leading
    cases event with
    | lossSpan | evicted => cases brings
    | recovered seq payload viaFec =>
      have alike := awaits.alike
      rw [if_neg (by rw [clean]; decide)] at alike
      have mirrors : pair.Mirrors epoch := ⟨awaits.booked, awaits.config, awaits.timed, alike⟩
      obtain ⟨booked, config, timed, alike⟩ := mirrors.recovered nowMs allowed
      rw [List.any_cons, Bool.or_eq_false_iff] at clean
      refine ⟨⟨booked, config, timed, ?_⟩, rest⟩
      rwa [if_neg (by rw [clean.2]; decide)]

theorem Awaits.delivered {epoch : UInt32} {pair : Mirror} {events : List DecoderEvent}
    (awaits : pair.Awaits epoch events) (nowMs : Nat) (leading : lossesLead events)
    {seen : List Unit}
    (allowed : Runs.Along (Mirror.deliver epoch nowMs) (fun _ pair event => pair.Mutual epoch event)
      seen pair events) :
    (Runs.run (Mirror.deliver epoch nowMs) pair events).1.Mirrors epoch := by
  induction events generalizing pair seen with
  | nil => exact ⟨awaits.booked, awaits.config, awaits.timed, awaits.alike⟩
  | cons event later ih =>
    obtain ⟨next, leading⟩ := awaits.deliver nowMs leading allowed.1
    exact ih next leading allowed.2

theorem run_deliver (epoch : UInt32) (nowMs : Nat) (pair : Mirror) (events : List DecoderEvent) :
    (Runs.run (deliver epoch nowMs) pair events).1 =
      ⟨(Runs.run (VideoReceiver.deliverEvent epoch true nowMs) pair.rx events).1,
        (Runs.run (FecDecodePipe.deliverEvent epoch true (FecDecodePipe.reading nowMs)) pair.pipe
          events).1⟩ := by
  induction events generalizing pair with
  | nil => rfl
  | cons event later ih => exact ih _

/-- From mirrored states the flushes emit the same. -/
theorem Mirrors.flush {epoch : UInt32} {pair : Mirror} (mirrors : pair.Mirrors epoch)
    (nowMs : Nat) :
    (pair.rx.flushReorder nowMs).2 =
        (pair.pipe.flushReorder (FecDecodePipe.reading nowMs)).2 ∧
      Mirrors epoch ⟨(pair.rx.flushReorder nowMs).1,
        (pair.pipe.flushReorder (FecDecodePipe.reading nowMs)).1⟩ := by
  have rounds : pair.rx.completed.size = pair.pipe.completedOrder.length := by
    rw [← mirrors.alike.completed, FecDecodePipe.size_view, mirrors.booked.order,
      List.length_reverse]
    rfl
  have read : pair.pipe.read.Timed := mirrors.timed
  obtain ⟨viewed, timed⟩ := FecDecodePipe.flushLoop_view mirrors.booked.read read nowMs
    pair.pipe.completedOrder.length
  have agree := mirrors.alike.flushLoop nowMs pair.pipe.completedOrder.length
  rw [FecDecodePipe.view_read] at viewed
  rw [← viewed] at agree
  have settings := FecDecodePipe.settings_flushLoop nowMs pair.pipe.completedOrder.length
    pair.pipe.read
  rw [VideoReceiver.flushReorder, rounds]
  exact ⟨agree.1.symm, (mirrors.booked.read.flushLoop nowMs _).2,
    (congrArg Prod.fst settings).trans mirrors.config, timed, agree.2⟩

theorem started_eq {pipe : FecDecodePipe} (booked : pipe.Booked) :
    ({ pipe with threw := false } : FecDecodePipe) = pipe := by
  rw [← booked.returned]

theorem Mirrors.tick {epoch : UInt32} {pair : Mirror} (mirrors : pair.Mirrors epoch)
    (nowMs : Nat) :
    (pair.call (.tick nowMs)).1.Mirrors epoch ∧
      ∀ entry ∈ (pair.call (.tick nowMs)).2, frames entry.1 = frames entry.2 := by
  obtain ⟨output, flushed⟩ := mirrors.flush nowMs
  have settings := (pair.pipe.flushReorder (FecDecodePipe.reading nowMs)).1.tickAck_frame false
    (FecDecodePipe.reading nowMs)
  have returned : (pair.pipe.flushReorder (FecDecodePipe.reading nowMs)).1.threw = false :=
    flushed.booked.returned
  simp only [Mirror.call, FecDecodePipe.call, started_eq mirrors.booked, FecDecodePipe.tickTimer,
    returned, Bool.false_eq_true, if_false, VideoReceiver.tickEvents, Runs.andThen]
  constructor
  · obtain ⟨count, time, highest, acked, readings, same⟩ := settings
    refine ⟨flushed.booked.tickAck false _, ?_, ?_, ?_⟩
    · rw [same]
      exact flushed.config
    · rw [same]
      exact flushed.timed
    · rw [FecDecodePipe.tickAck_view]
      exact flushed.alike.ackEvents nowMs
  · intro entry member
    rw [List.mem_singleton.mp member, frames_append, output,
      frames_silent (VideoReceiver.ackEvents_no_frame _ nowMs), List.append_nil]

theorem v2Message_some {buf : List UInt8} {message : SymbolMessage}
    (parsed : v2Message buf = some message) :
    ∃ symbol, parseSymbolMsgVersioned buf = .ok (.v2 symbol) ∧
      ofNative (.v2 symbol) = .v2 message.epoch message.symbol ∧
      VideoReceiver.symbolOf (.v2 symbol) = ⟨message.epoch, true, message.symbol⟩ := by
  unfold v2Message at parsed
  split at parsed
  next symbol read =>
    cases parsed
    cases symbol <;> exact ⟨_, read, rfl, rfl⟩
  next => cases parsed
  next => cases parsed

/-- A message of the epoch, as the receiver takes it. -/
theorem onMessage_v2 {rx : VideoReceiver} {buf : List UInt8} {message : SymbolMessage}
    (parsed : v2Message buf = some message)
    (active : rx.activeEpoch = none ∨ rx.activeEpoch = some message.epoch) (nowMs : Nat) :
    rx.onMessage buf nowMs =
      { rx with activeEpoch := some message.epoch }.onSymbol message.epoch true message.symbol
        nowMs := by
  obtain ⟨symbol, read, -, same⟩ := v2Message_some parsed
  have enters : rx.acceptEpoch message.epoch true nowMs =
      some ({ rx with activeEpoch := some message.epoch }, []) := by
    unfold VideoReceiver.acceptEpoch
    obtain inactive | current := active
    · rw [inactive]
    · rw [current]
      dsimp only
      rw [if_pos rfl, ← current]
  simp only [VideoReceiver.onMessage, read, same, enters, Runs.andThen, List.nil_append]

/-- A message of the epoch, as the pipe takes it. -/
theorem submitPacket_v2 {pipe : FecDecodePipe} {buf : List UInt8} {message : SymbolMessage}
    (parsed : v2Message buf = some message) (accepted : (parseSymbolMessage buf).isSome)
    (config : pipe.config = .v2 message.epoch) (clock : Nat → Int) :
    pipe.submitPacket buf clock = pipe.onSymbol message.symbol clock := by
  obtain ⟨symbol, read, same, -⟩ := v2Message_some parsed
  obtain ⟨versioned, found⟩ := Option.isSome_iff_exists.mp accepted
  obtain ⟨native, known, -, rfl⟩ := (parseSymbolMessage_iff buf versioned).mp found
  rw [read] at known
  cases known
  rw [same] at found
  have taken : pipe.symbolOf buf = some message.symbol := by
    rw [FecDecodePipe.symbolOf, found, Option.bind_some, config, FecPipeConfig.accept, if_pos rfl]
  rw [FecDecodePipe.submitPacket, taken]

theorem Mirrors.enter {pair : Mirror} {message : SymbolMessage}
    (mirrors : pair.Mirrors message.epoch)
    (same : (pair.rx.decoder.pushSymbol message.symbol).2 =
      pair.pipe.decoderEvents message.symbol) :
    (pair.enter message).Awaits message.epoch (pair.pipe.decoderEvents message.symbol) := by
  have alike := mirrors.alike
  refine ⟨mirrors.booked.decode _, mirrors.config, mirrors.timed, ?_⟩
  have decoded : (pair.pipe.decode message.symbol).view.Alike
      ({ pair.rx with activeEpoch := some message.epoch }.decode message.symbol) :=
    ⟨alike.pending, alike.completed, alike.bufferedBytes, alike.nextFrameId,
      alike.lastTimestampUs, alike.gate⟩
  simp only [Mirror.enter, VideoReceiver.discontinueOnLoss, same]
  split_ifs
  · exact decoded.reset
  · exact decoded

theorem process_path (rx : VideoReceiver) (epoch : UInt32) (events : List DecoderEvent)
    (nowMs : Nat) :
    Runs.Path (VideoReceiver.Intake epoch true (fun _ => True)) rx
      (rx.processDecoderEvents epoch true events nowMs).2
      (rx.processDecoderEvents epoch true events nowMs).1 := by
  apply Runs.Path.andThen
  · unfold VideoReceiver.discontinueOnLoss
    split_ifs
    · exact .single (.discontinue rx _)
    · exact .done rx
  · exact VideoReceiver.deliverEvents_path _ events nowMs (fun _ _ _ _ => trivial)

theorem onSymbol_activeEpoch (rx : VideoReceiver) (epoch : UInt32) (symbol : Symbol)
    (nowMs : Nat) : (rx.onSymbol epoch true symbol nowMs).1.activeEpoch = rx.activeEpoch := by
  have taken := (process_path (rx.decode symbol) epoch (rx.decoder.pushSymbol symbol).2 nowMs).keeps
    (fun _ state => state.activeEpoch = rx.activeEpoch)
    (fun _ _ _ _ same move => move.activeEpoch.trans same) [] rfl
  exact (VideoReceiver.flushLoop_path nowMs _ _).keeps
    (fun _ state => state.activeEpoch = rx.activeEpoch)
    (fun _ _ _ _ same move => move.activeEpoch.trans same) [] taken

theorem frames_delivered {pipe : FecDecodePipe} (booked : pipe.Booked) (epoch : UInt32)
    (clock : Nat → Int) (events : List DecoderEvent) :
    frames (Runs.run (FecDecodePipe.deliverEvent epoch true clock) pipe events).2 = [] := by
  have kept := Runs.run_invariant_of_forall (FecDecodePipe.deliverEvent epoch true clock)
    (fun seen state => state.Booked ∧ frames seen = []) ?_ [] pipe events ⟨booked, rfl⟩
  · simpa using kept.2
  · rintro seen state event ⟨booked, silent⟩
    obtain ⟨path, next⟩ := booked.deliverEvent epoch true clock event
    exact ⟨next, by rw [frames_append, silent, frames_intake path, List.nil_append]⟩

theorem Mirrors.message {pair : Mirror} {epoch : UInt32} (mirrors : pair.Mirrors epoch)
    (active : pair.rx.activeEpoch = none ∨ pair.rx.activeEpoch = some epoch)
    {buf : List UInt8} {nowMs : Nat} (fed : pair.Fed epoch (.message buf nowMs))
    (plain : pair.Plain (.message buf nowMs)) :
    (pair.call (.message buf nowMs)).1.Mirrors epoch ∧
      ∀ entry ∈ (pair.call (.message buf nowMs)).2, frames entry.1 = frames entry.2 := by
  obtain ⟨message, parsed, rfl, same⟩ := fed
  obtain ⟨accepted, each⟩ := plain
  obtain ⟨leading, allowed⟩ := each message parsed
  have delivered := (mirrors.enter same).delivered nowMs leading allowed
  rw [run_deliver] at delivered
  obtain ⟨output, flushed⟩ := delivered.flush nowMs
  simp only [Mirror.call, FecDecodePipe.call, started_eq mirrors.booked,
    onMessage_v2 parsed active, submitPacket_v2 parsed accepted mirrors.config]
  have taken : (({ pair.rx with activeEpoch := some message.epoch }.decode
      message.symbol).processDecoderEvents message.epoch true
      (pair.rx.decoder.pushSymbol message.symbol).2 nowMs).1 =
      (Runs.run (VideoReceiver.deliverEvent message.epoch true nowMs) (pair.enter message).rx
        (pair.pipe.decoderEvents message.symbol)).1 := by
    rw [← same]
    rfl
  have silent := frames_delivered (mirrors.booked.decode message.symbol) message.epoch
    (FecDecodePipe.reading nowMs) (pair.pipe.decoderEvents message.symbol)
  simp only [VideoReceiver.onSymbol, FecDecodePipe.onSymbol, Runs.andThen, mirrors.config]
  rw [taken]
  refine ⟨flushed, fun entry member => ?_⟩
  rw [List.mem_singleton.mp member]
  dsimp only [FecPipeConfig.epoch, FecPipeConfig.isV2]
  rw [frames_append, frames_append, frames_intake (process_path _ _ _ nowMs), silent]
  exact congrArg frames output

theorem mirrors_start {epoch : UInt32} (nonzero : epoch ≠ 0) (onAck : Bool) (nowMs : Nat) :
    (start epoch onAck nowMs).Mirrors epoch := by
  have positive : epoch.toNat ≠ 0 := fun zero => nonzero (UInt32.toNat_inj.mp zero)
  have bound := epoch.toNat_lt
  have accepted : (ConfigRequest.v2 epoch.toNat).accepted = some (.v2 epoch) := by
    rw [ConfigRequest.accepted, if_neg (by omega), Int.toNat_natCast, UInt32.ofNat_toNat]
  have ready := (FecDecodePipe.ready_new onAck (FecDecodePipe.reading nowMs)).call
    (.configure (.v2 epoch.toNat) (FecDecodePipe.reading nowMs))
  refine ⟨ready.booked, ?_, ?_, ?_⟩ <;>
    simp only [start, FecDecodePipe.call, FecDecodePipe.configure, accepted, FecDecodePipe.new,
      FecPipeConfig.isV2, Bool.not_false, Bool.and_self, if_true]
  · rfl
  · intro key found queued
    simp [FecDecodePipe.clear] at queued
  · exact ⟨rfl, rfl, rfl, rfl, rfl, Or.inr ⟨rfl, by simp [FecDecodePipe.view,
      FecDecodePipe.clear]⟩⟩

/-- Where no message is one that they treat differently, receiver and pipe submit the same frames
in every call. -/
theorem run_agrees (epoch : UInt32) (nonzero : epoch ≠ 0) (onAck : Bool) (nowMs : Nat)
    (calls : List MirrorCall)
    (fed : Runs.Along call (fun _ pair input => pair.Fed epoch input) []
      (start epoch onAck nowMs) calls)
    (plain : Runs.Along call (fun _ pair input => pair.Plain input) []
      (start epoch onAck nowMs) calls) :
    ∀ entry ∈ (Runs.run call (start epoch onAck nowMs) calls).2,
      frames entry.1 = frames entry.2 := by
  have kept := Runs.run_invariant call _
    (fun seen pair => (pair.Mirrors epoch ∧
      (pair.rx.activeEpoch = none ∨ pair.rx.activeEpoch = some epoch)) ∧
      ∀ entry ∈ seen, frames entry.1 = frames entry.2) ?_ [] _ calls
    ⟨⟨mirrors_start nonzero onAck nowMs, Or.inl rfl⟩, by simp⟩ (fed.and plain)
  · simpa using kept.2
  · rintro seen pair input ⟨⟨mirrors, active⟩, earlier⟩ ⟨fed, plain⟩
    cases input with
    | message buf nowMs =>
      obtain ⟨next, same⟩ := mirrors.message active fed plain
      refine ⟨⟨next, Or.inr ?_⟩, fun entry member => ?_⟩
      · obtain ⟨message, parsed, rfl, -⟩ := fed
        simp only [Mirror.call, onMessage_v2 parsed active]
        exact onSymbol_activeEpoch _ _ _ nowMs
      · exact (List.mem_append.mp member).elim (earlier entry) (same entry)
    | tick nowMs =>
      obtain ⟨next, same⟩ := mirrors.tick nowMs
      refine ⟨⟨next, ?_⟩, fun entry member => ?_⟩
      · have unmoved := (pair.rx.tickEvents_path nowMs).keeps
          (fun _ state => state.activeEpoch = pair.rx.activeEpoch)
          (fun _ _ _ _ same move => move.activeEpoch.trans same) [] rfl
        simp only [Mirror.call, unmoved]
        exact active
      · exact (List.mem_append.mp member).elim (earlier entry) (same entry)

instance decidableFed (epoch : UInt32) (pair : Mirror) (input : MirrorCall) :
    Decidable (pair.Fed epoch input) :=
  match input with
  | .message buf _ =>
      inferInstanceAs (Decidable (∃ message ∈ v2Message buf, message.epoch = epoch ∧
        (pair.rx.decoder.pushSymbol message.symbol).2 = pair.pipe.decoderEvents message.symbol))
  | .tick _ => .isTrue trivial

instance decidableMutual (epoch : UInt32) (pair : Mirror) (event : DecoderEvent) :
    Decidable (pair.Mutual epoch event) :=
  inferInstanceAs (Decidable (∀ chunk ∈ FecDecodePipe.chunkOf true event, _ ∨ _))

instance decidablePlain (pair : Mirror) (input : MirrorCall) : Decidable (pair.Plain input) :=
  match input with
  | .message buf nowMs =>
      inferInstanceAs (Decidable ((parseSymbolMessage buf).isSome ∧ ∀ message ∈ v2Message buf,
        lossesLead (pair.pipe.decoderEvents message.symbol) ∧
          Runs.Along (deliver message.epoch nowMs)
            (fun _ pair event => pair.Mutual message.epoch event) [] (pair.enter message)
            (pair.pipe.decoderEvents message.symbol)))
  | .tick _ => .isTrue trivial

-- An intact frame of one chunk.
def solo (seq frameId : UInt32) (isKey : Bool) (byte : UInt8) : List UInt8 :=
  VideoReceiver.soloMessage seq frameId isKey [byte] (ieeeCrc32 [byte])

-- A key frame, a delta frame that comes early, the gap given up, and the next key frame.
def gap : List MirrorCall :=
  [.message (solo 0 5 true 1) 0, .message (solo 1 7 false 2) 1, .tick 200,
    .message (solo 2 9 true 3) 201]

theorem run_agrees_gap :
    ((Runs.run call (start 1 true 0) gap).2.flatMap (frames ·.1)).length = 2 ∧
      ∀ entry ∈ (Runs.run call (start 1 true 0) gap).2, frames entry.1 = frames entry.2 :=
  ⟨by decide +kernel,
    run_agrees 1 (by decide) true 0 gap (by decide +kernel) (by decide +kernel)⟩

-- A source of epoch 1 whose payload is no chunk, and a repair.
def looseSource (seq : UInt32) : List UInt8 := 2 :: (leU32 1 ++ leU32 seq ++ v2Tail [1])

def looseRepair (windowBase windowEnd : UInt32) : List UInt8 :=
  3 :: (leU32 1 ++ leU16 0 ++ leU32 windowBase ++ leU32 windowEnd ++ v2Tail [0])

-- The claim of agreement on one run.
def Agrees (calls : List MirrorCall) : Prop :=
  Runs.Along call (fun _ pair input => pair.Fed 1 input) [] (start 1 true 0) calls →
    ∀ entry ∈ (Runs.run call (start 1 true 0) calls).2, frames entry.1 = frames entry.2

instance decidableAgrees (calls : List MirrorCall) : Decidable (Agrees calls) :=
  inferInstanceAs (Decidable (_ → _))

/-- The four differences: the pipe gates a delta frame that comes first; it ignores the frame 3
behind the anchor 6, for which the receiver gives up the gap; it refuses a source without a chunk,
with which the receiver gives up a gap; it drops the key frame that comes before the loss. -/
theorem run_disagrees :
    ¬ Agrees [.message (solo 0 0 false 1) 0] ∧
      ¬ Agrees [.message (solo 0 5 true 1) 0, .message (solo 1 3 false 2) 1, .tick 200,
        .message (solo 2 6 false 3) 201] ∧
      ¬ Agrees [.message (solo 0 0 true 1) 0, .message (solo 1 2 false 2) 1,
        .message (looseSource 2) 150, .message (solo 3 1 false 3) 151] ∧
      ¬ Agrees [.message (looseRepair 0 2) 0, .message (solo 2 7 true 1) 1] :=
  ⟨by decide +kernel, by decide +kernel, by decide +kernel, by decide +kernel⟩

end Mirror

end Web

end BetterParsec
