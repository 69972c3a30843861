import BetterParsec.Video.Receiver

set_option autoImplicit false
set_option linter.all false

/-!
# Moves of the receiver

Everything a call can do, as a transition relation: `Intake` is what happens
while the chunks of a message are delivered, `Release` what happens while the
reorder queue is flushed. Every call is a path of such moves, so an invariant of
the receiver is checked move by move.
-/

namespace BetterParsec

-- The chunk a decoder event brings to reassembly.
def chunkOf (isV2 : Bool) : DecoderEvent → Option Chunk
  | .recovered _ payload _ => (parseChunk isV2 payload).filter (fun chunk => chunk.wellFormed isV2)
  | .lossSpan _ _ | .evicted _ _ => none

namespace VideoReceiver

inductive Intake (epoch : UInt32) (isV2 : Bool) (chunks : Chunk → Prop) :
    VideoReceiver → List RxEvent → VideoReceiver → Prop where
  | discontinue (rx : VideoReceiver) (reason : DiscontinuityReason) :
      Intake epoch isV2 chunks rx [.discontinuity epoch reason] rx.reset
  | openFrame (rx : VideoReceiver) (chunk : Chunk) (brought : chunks chunk)
      (absent : rx.completed.lookup (epoch, chunk.frameId) = none)
      (fresh : rx.pending.lookup (epoch, chunk.frameId) = none) :
      Intake epoch isV2 chunks rx []
        (rx.openPending (epoch, chunk.frameId) (chunk.openFrame isV2))
  | store (rx : VideoReceiver) (chunk : Chunk) (frame : PendingFrame) (viaFec : Bool)
      (brought : chunks chunk)
      (absent : rx.completed.lookup (epoch, chunk.frameId) = none)
      (held : rx.pending.lookup (epoch, chunk.frameId) = some frame)
      (agrees : frame.metadataMatches isV2 chunk) (awaits : frame.awaits chunk) :
      Intake epoch isV2 chunks rx []
        (rx.updatePending (epoch, chunk.frameId) (frame.store chunk viaFec) chunk.fragment.length)
  | drop (rx : VideoReceiver) (frameId : UInt32) (frame : PendingFrame)
      (held : rx.pending.lookup (epoch, frameId) = some frame) (awaiting : rx.awaitingIdr)
      (delta : frame.isKey = false) :
      Intake epoch isV2 chunks rx [] (rx.dropFrame (epoch, frameId) frame)
  | queue (rx : VideoReceiver) (frameId : UInt32) (frame : PendingFrame) (nowMs : Nat)
      (absent : rx.completed.lookup (epoch, frameId) = none)
      (held : rx.pending.lookup (epoch, frameId) = some frame)
      (full : frame.receivedCount = frame.chunkCount.toNat)
      (admitted : rx.awaitingIdr → frame.isKey) :
      Intake epoch isV2 chunks rx [] (rx.queueFrame (epoch, frameId) frame nowMs)
  | ack (rx : VideoReceiver) (nowMs : Nat) :
      Intake epoch isV2 chunks rx (rx.ackEvents nowMs).2 (rx.ackEvents nowMs).1

def unitOf (rx : VideoReceiver) (epoch : UInt32) (found : CompletedFrame) (data : List UInt8) :
    DecodeUnit :=
  { frameId := found.frameId
    epoch := epoch
    isKey := found.frame.isKey
    timestampUs := found.frame.timestampUs
    durationUs := (found.frame.timestampUs.toNat : Int) - rx.lastTimestampUs.toNat
    data := data }

-- The receiver once `found` has left the queue as a frame.
def afterEmit (rx : VideoReceiver) (expected : UInt32 × UInt32) (found : CompletedFrame) :
    VideoReceiver :=
  { rx with
    completed := rx.completed.erase expected
    bufferedBytes := rx.bufferedBytes - found.frame.bytes
    framesRecovered := rx.framesRecovered + (if found.frame.usedRecovery then 1 else 0)
    lastTimestampUs := found.frame.timestampUs
    nextFrameId := some (found.frameId + 1) }

inductive Release : VideoReceiver → List RxEvent → VideoReceiver → Prop where
  | gap (rx : VideoReceiver) (epoch : UInt32) :
      Release rx [.discontinuity epoch .reorderGap] rx.reset
  | emit (rx : VideoReceiver) (key : UInt32 × UInt32) (first found : CompletedFrame)
      (data : List UInt8) (oldest : rx.completed.lookup key = some first)
      (turn : rx.completed.lookup (key.1, rx.nextFrameId.getD first.frameId) = some found)
      (whole : PendingFrame.joinParts found.frame.parts = some data)
      (intact : found.frame.intact found.frameId data) :
      Release rx [.frame (rx.unitOf key.1 found data)]
        (rx.afterEmit (key.1, rx.nextFrameId.getD first.frameId) found)
  | corrupt (rx : VideoReceiver) (key : UInt32 × UInt32) (first found : CompletedFrame)
      (oldest : rx.completed.lookup key = some first)
      (turn : rx.completed.lookup (key.1, rx.nextFrameId.getD first.frameId) = some found) :
      Release rx [.discontinuity key.1 .frameCrc]
        { rx.reset with nextFrameId := some (found.frameId + 1) }
  | hollow (rx : VideoReceiver) (key : UInt32 × UInt32) (first found : CompletedFrame)
      (turn : rx.completed.lookup (key.1, rx.nextFrameId.getD first.frameId) = some found)
      (missing : PendingFrame.joinParts found.frame.parts = none) :
      Release rx []
        { rx with
          completed := rx.completed.erase (key.1, rx.nextFrameId.getD first.frameId)
          nextFrameId := some (found.frameId + 1) }
  | ack (rx : VideoReceiver) (nowMs : Nat) :
      Release rx (rx.ackEvents nowMs).2 (rx.ackEvents nowMs).1

section Paths

variable {epoch : UInt32} {isV2 : Bool} {chunks : Chunk → Prop}

theorem completeFrame_intake (rx : VideoReceiver) (frameId : UInt32) (frame : PendingFrame)
    (nowMs : Nat) (absent : rx.completed.lookup (epoch, frameId) = none)
    (held : rx.pending.lookup (epoch, frameId) = some frame)
    (full : frame.receivedCount = frame.chunkCount.toNat) :
    Intake epoch isV2 chunks rx [] (rx.completeFrame (epoch, frameId) frame nowMs) := by
  unfold completeFrame
  split_ifs with gated
  · rw [Bool.and_eq_true, Bool.not_eq_true'] at gated
    exact .drop rx frameId frame held gated.1 gated.2
  · exact .queue rx frameId frame nowMs absent held full (by simpa using gated)

theorem storeChunk_path (rx : VideoReceiver) (chunk : Chunk) (frame : PendingFrame) (viaFec : Bool)
    (nowMs : Nat) (brought : chunks chunk)
    (absent : rx.completed.lookup (epoch, chunk.frameId) = none)
    (held : rx.pending.lookup (epoch, chunk.frameId) = some frame) :
    Runs.Path (Intake epoch isV2 chunks) rx
      (rx.storeChunk (epoch, chunk.frameId) frame isV2 chunk viaFec nowMs).2
      (rx.storeChunk (epoch, chunk.frameId) frame isV2 chunk viaFec nowMs).1 := by
  unfold storeChunk
  split_ifs with differs occupied full
  · exact .single (.discontinue rx _)
  · exact .done rx
  · exact .single (.discontinue rx _)
  · have stored : Intake epoch isV2 chunks rx [] _ :=
      .store rx chunk frame viaFec brought absent held (by simpa using differs)
        (by simpa using occupied)
    dsimp only
    split_ifs with partly
    · exact .single stored
    · refine .step stored (.single (completeFrame_intake _ chunk.frameId _ nowMs absent ?_ ?_))
      · exact AList.lookup_insert _
      · simpa using partly

theorem admitChunk_path (rx : VideoReceiver) (chunk : Chunk) (viaFec : Bool) (nowMs : Nat)
    (brought : chunks chunk) :
    Runs.Path (Intake epoch isV2 chunks) rx (rx.admitChunk epoch isV2 chunk viaFec nowMs).2
      (rx.admitChunk epoch isV2 chunk viaFec nowMs).1 := by
  cases queued : rx.completed.lookup (epoch, chunk.frameId) with
  | some done =>
    simp only [admitChunk, queued, Option.isSome_some, if_true]
    exact .done rx
  | none =>
    cases held : rx.pending.lookup (epoch, chunk.frameId) with
    | some frame =>
      simp only [admitChunk, queued, held, Option.isSome_none, Bool.false_eq_true, if_false]
      exact rx.storeChunk_path chunk frame viaFec nowMs brought queued held
    | none =>
      simp only [admitChunk, queued, held, Option.isSome_none, Bool.false_eq_true, if_false]
      split_ifs
      · exact .single (.discontinue rx _)
      · exact .single (.discontinue rx _)
      · have opened : Intake epoch isV2 chunks rx [] _ := .openFrame rx chunk brought queued held
        refine .step opened ?_
        exact storeChunk_path _ chunk _ viaFec nowMs brought queued (AList.lookup_insert _)

theorem deliverChunk_path (rx : VideoReceiver) (payload : List UInt8) (viaFec : Bool)
    (nowMs : Nat) (brought : ∀ chunk, parseChunk isV2 payload = some chunk →
      chunk.wellFormed isV2 → chunks chunk) :
    Runs.Path (Intake epoch isV2 chunks) rx
      (rx.deliverChunk epoch isV2 payload viaFec nowMs).2
      (rx.deliverChunk epoch isV2 payload viaFec nowMs).1 := by
  unfold deliverChunk
  cases parsed : parseChunk isV2 payload with
  | none => exact .done rx
  | some chunk =>
    dsimp only
    split_ifs with wellFormed
    · exact rx.admitChunk_path chunk viaFec nowMs (brought chunk parsed wellFormed)
    · exact .done rx

theorem deliverEvents_path (rx : VideoReceiver) (events : List DecoderEvent) (nowMs : Nat)
    (brought : ∀ event ∈ events, ∀ chunk, chunkOf isV2 event = some chunk → chunks chunk) :
    Runs.Path (Intake epoch isV2 chunks) rx
      (Runs.run (deliverEvent epoch isV2 nowMs) rx events).2
      (Runs.run (deliverEvent epoch isV2 nowMs) rx events).1 := by
  apply Runs.Path.run
  intro state event member
  cases event with
  | recovered seq payload viaFec =>
    apply Runs.Path.andThen
    · apply deliverChunk_path
      intro chunk parsed wellFormed
      apply brought _ member chunk
      rw [chunkOf, parsed, Option.filter_some, if_pos wellFormed]
    · exact .single (.ack _ nowMs)
  | lossSpan => exact .done state
  | evicted => exact .done state

end Paths

theorem takeFrame_release (rx : VideoReceiver) (key : UInt32 × UInt32) (first found : CompletedFrame)
    (oldest : rx.completed.lookup key = some first)
    (turn : rx.completed.lookup (key.1, rx.nextFrameId.getD first.frameId) = some found) :
    Release rx (rx.takeFrame (key.1, rx.nextFrameId.getD first.frameId) found).2
      (rx.takeFrame (key.1, rx.nextFrameId.getD first.frameId) found).1 := by
  unfold takeFrame assembleFrame
  cases whole : PendingFrame.joinParts found.frame.parts with
  | none => exact .hollow rx key first found turn whole
  | some data =>
    cases intact : found.frame.intact found.frameId data with
    | false =>
      simp only [intact, Bool.not_false, if_true]
      exact .corrupt rx key first found oldest turn
    | true =>
      simp only [intact, Bool.not_true, Bool.false_eq_true, if_false]
      exact .emit rx key first found data oldest turn whole intact

theorem flushLoop_path (nowMs fuel : Nat) (rx : VideoReceiver) :
    Runs.Path Release rx (flushLoop nowMs fuel rx).2 (flushLoop nowMs fuel rx).1 := by
  induction fuel generalizing rx with
  | zero => exact .done rx
  | succ fuel ih =>
    unfold flushLoop
    cases last : rx.completed.entries.getLast? with
    | none => exact .done rx
    | some entry =>
      obtain ⟨key, first⟩ := entry
      have oldest : rx.completed.lookup key = some first :=
        AList.mem_lookup_iff.mpr (List.mem_of_getLast? last)
      dsimp only
      cases turn : rx.completed.lookup (key.1, rx.nextFrameId.getD first.frameId) with
      | none =>
        dsimp only
        split_ifs
        · exact .done rx
        · exact .single (.gap rx key.1)
      | some found =>
        exact .andThen (.single (rx.takeFrame_release key first found oldest turn)) (ih _)

theorem tickEvents_path (rx : VideoReceiver) (nowMs : Nat) :
    Runs.Path Release rx (rx.tickEvents nowMs).2 (rx.tickEvents nowMs).1 :=
  .andThen (flushLoop_path nowMs _ rx) (.single (.ack _ nowMs))

-- A message whose epoch was accepted, with the state and output of that.
structure Arrival where
  message : SymbolMessage
  entered : VideoReceiver × List RxEvent

def arrival (rx : VideoReceiver) (buf : List UInt8) (nowMs : Nat) : Option Arrival :=
  match parseSymbolMsgVersioned buf with
  | .error _ => none
  | .ok parsed =>
      let message := symbolOf parsed
      (rx.acceptEpoch message.epoch message.isV2 nowMs).map (fun entered => ⟨message, entered⟩)

namespace Arrival

variable (arrival : Arrival)

def events : List DecoderEvent :=
  (arrival.entered.1.decoder.pushSymbol arrival.message.symbol).2

def chunks : List Chunk := arrival.events.filterMap (chunkOf arrival.message.isV2)

-- The receiver as the first chunk reaches it, and what was emitted before.
def start : VideoReceiver × List RxEvent :=
  Runs.andThen arrival.entered (fun rx =>
    (rx.decode arrival.message.symbol).discontinueOnLoss arrival.message.epoch arrival.events)

-- The receiver once all chunks were delivered, and what that emitted.
def delivered (nowMs : Nat) : VideoReceiver × List RxEvent :=
  Runs.run (deliverEvent arrival.message.epoch arrival.message.isV2 nowMs) arrival.start.1
    arrival.events

end Arrival

theorem arrival_parsed {rx : VideoReceiver} {buf : List UInt8} {nowMs : Nat} {arrival : Arrival}
    (arrived : rx.arrival buf nowMs = some arrival) :
    ∃ parsed, parseSymbolMsgVersioned buf = .ok parsed ∧ symbolOf parsed = arrival.message := by
  unfold VideoReceiver.arrival at arrived
  cases parsed : parseSymbolMsgVersioned buf with
  | error => simp [parsed] at arrived
  | ok msg =>
    simp only [parsed, Option.map_eq_some_iff] at arrived
    obtain ⟨entered, -, rfl⟩ := arrived
    exact ⟨msg, rfl, rfl⟩

theorem onMessage_of_none {rx : VideoReceiver} {buf : List UInt8} {nowMs : Nat}
    (ignored : rx.arrival buf nowMs = none) : rx.onMessage buf nowMs = (rx, []) := by
  unfold VideoReceiver.arrival at ignored
  unfold onMessage
  cases parsed : parseSymbolMsgVersioned buf with
  | error => rfl
  | ok msg =>
    simp only [parsed, Option.map_eq_none_iff] at ignored
    simp only [ignored]

/-- The course of a message that arrives: the epoch, the chunks, the flush. -/
theorem onMessage_of_some {rx : VideoReceiver} {buf : List UInt8} {nowMs : Nat} {arrival : Arrival}
    (arrived : rx.arrival buf nowMs = some arrival) :
    rx.acceptEpoch arrival.message.epoch arrival.message.isV2 nowMs = some arrival.entered ∧
      rx.onMessage buf nowMs = (((arrival.delivered nowMs).1.flushReorder nowMs).1,
        arrival.start.2 ++ ((arrival.delivered nowMs).2 ++
          ((arrival.delivered nowMs).1.flushReorder nowMs).2)) := by
  unfold VideoReceiver.arrival at arrived
  unfold onMessage
  cases parsed : parseSymbolMsgVersioned buf with
  | error => simp [parsed] at arrived
  | ok msg =>
    simp only [parsed, Option.map_eq_some_iff] at arrived
    obtain ⟨entered, enters, rfl⟩ := arrived
    refine ⟨enters, ?_⟩
    simp only [enters, Runs.andThen, onSymbol, processDecoderEvents, Arrival.start, Arrival.events,
      Arrival.delivered, List.append_assoc]

theorem delivered_path (arrival : Arrival) (nowMs : Nat) :
    Runs.Path (Intake arrival.message.epoch arrival.message.isV2 (· ∈ arrival.chunks))
      arrival.start.1 (arrival.delivered nowMs).2 (arrival.delivered nowMs).1 := by
  apply deliverEvents_path
  intro event member chunk brought
  exact List.mem_filterMap.mpr ⟨event, member, brought⟩

/-- A message that arrives is a path of intake moves, then one of release moves. -/
theorem onMessage_cases (rx : VideoReceiver) (buf : List UInt8) (nowMs : Nat) :
    rx.arrival buf nowMs = none ∧ rx.onMessage buf nowMs = (rx, []) ∨
      ∃ arrival middle taken given, rx.arrival buf nowMs = some arrival ∧
        rx.acceptEpoch arrival.message.epoch arrival.message.isV2 nowMs = some arrival.entered ∧
        Runs.Path (Intake arrival.message.epoch arrival.message.isV2 (· ∈ arrival.chunks))
          arrival.start.1 taken middle ∧
        Runs.Path Release middle given (rx.onMessage buf nowMs).1 ∧
        (rx.onMessage buf nowMs).2 = arrival.start.2 ++ (taken ++ given) := by
  cases arrived : rx.arrival buf nowMs with
  | none => exact Or.inl ⟨rfl, onMessage_of_none arrived⟩
  | some arrival =>
    obtain ⟨accepted, course⟩ := onMessage_of_some arrived
    refine Or.inr ⟨arrival, (arrival.delivered nowMs).1, (arrival.delivered nowMs).2,
      ((arrival.delivered nowMs).1.flushReorder nowMs).2, rfl, accepted,
      delivered_path arrival nowMs, ?_, ?_⟩
    · rw [course]
      exact flushLoop_path nowMs _ _
    · rw [course]

/-- How the epoch of a message is accepted. -/
theorem acceptEpoch_cases {rx : VideoReceiver} {epoch : UInt32} {isV2 : Bool} {nowMs : Nat}
    {entered : VideoReceiver × List RxEvent}
    (accepted : rx.acceptEpoch epoch isV2 nowMs = some entered) :
    rx.activeEpoch = none ∧ entered = ({ rx with activeEpoch := some epoch }, []) ∨
      rx.activeEpoch = some epoch ∧ entered = (rx, []) ∨
      (∃ current, rx.activeEpoch = some current ∧ epoch ≠ current) ∧
        entered = ((rx.enterEpoch epoch nowMs).reset,
          [.discontinuity epoch .epochTransition]) := by
  unfold acceptEpoch at accepted
  cases active : rx.activeEpoch with
  | none =>
    rw [active] at accepted
    exact Or.inl ⟨rfl, (Option.some.inj accepted).symm⟩
  | some current =>
    rw [active] at accepted
    dsimp only at accepted
    split_ifs at accepted with same forward
    · exact Or.inr (Or.inl ⟨congrArg some same.symm, (Option.some.inj accepted).symm⟩)
    · exact Or.inr (Or.inr ⟨⟨current, rfl, same⟩, (Option.some.inj accepted).symm⟩)

/-- The ACK gate touches its own cadence only, and emits nothing but ACKs. -/
theorem ackEvents_frame (rx : VideoReceiver) (nowMs : Nat) :
    (∃ count time highest, (rx.ackEvents nowMs).1 =
      { rx with symbolsSinceAck := count, lastAckTimeMs := time, lastAckedHighest := highest }) ∧
    ((rx.ackEvents nowMs).2 = [] ∨ ∃ seq, (rx.ackEvents nowMs).2 = [.ack seq]) := by
  unfold ackEvents tickAck
  cases rx.decoder.highestFullyDecoded with
  | none => exact ⟨⟨_, _, _, rfl⟩, Or.inl rfl⟩
  | some highest =>
    dsimp only
    split_ifs
    · exact ⟨⟨_, _, _, rfl⟩, Or.inl rfl⟩
    · exact ⟨⟨_, _, _, rfl⟩, Or.inr ⟨highest, rfl⟩⟩
    · exact ⟨⟨_, _, _, rfl⟩, Or.inl rfl⟩

theorem ackEvents_no_frame (rx : VideoReceiver) (nowMs : Nat) :
    ∀ event ∈ (rx.ackEvents nowMs).2, ∀ unit, event ≠ .frame unit := by
  obtain ⟨-, none | ⟨seq, some⟩⟩ := rx.ackEvents_frame nowMs
  · simp [none]
  · simp [some]

theorem Intake.no_frame {epoch : UInt32} {isV2 : Bool} {chunks : Chunk → Prop}
    {rx next : VideoReceiver} {emitted : List RxEvent}
    (move : Intake epoch isV2 chunks rx emitted next) :
    ∀ event ∈ emitted, ∀ unit, event ≠ .frame unit := by
  cases move with
  | ack nowMs => exact rx.ackEvents_no_frame nowMs
  | _ => simp

theorem Intake.activeEpoch {epoch : UInt32} {isV2 : Bool} {chunks : Chunk → Prop}
    {rx next : VideoReceiver} {emitted : List RxEvent}
    (move : Intake epoch isV2 chunks rx emitted next) : next.activeEpoch = rx.activeEpoch := by
  cases move with
  | discontinue => rfl
  | openFrame => rfl
  | store => rfl
  | drop => rfl
  | queue => rfl
  | ack =>
    obtain ⟨⟨count, time, highest, state⟩, -⟩ := rx.ackEvents_frame _
    rw [state]

theorem Release.activeEpoch {rx next : VideoReceiver} {emitted : List RxEvent}
    (move : Release rx emitted next) : next.activeEpoch = rx.activeEpoch := by
  cases move with
  | ack nowMs =>
    obtain ⟨⟨count, time, highest, state⟩, -⟩ := rx.ackEvents_frame nowMs
    rw [state]
  | _ => rfl

theorem Intake.decoder {epoch : UInt32} {isV2 : Bool} {chunks : Chunk → Prop}
    {rx next : VideoReceiver} {emitted : List RxEvent}
    (move : Intake epoch isV2 chunks rx emitted next) : next.decoder = rx.decoder := by
  cases move with
  | ack nowMs =>
    obtain ⟨⟨count, time, highest, state⟩, -⟩ := rx.ackEvents_frame nowMs
    rw [state]
  | _ => rfl

theorem Release.decoder {rx next : VideoReceiver} {emitted : List RxEvent}
    (move : Release rx emitted next) : next.decoder = rx.decoder := by
  cases move with
  | ack nowMs =>
    obtain ⟨⟨count, time, highest, state⟩, -⟩ := rx.ackEvents_frame nowMs
    rw [state]
  | _ => rfl

-- What an invariant has to survive before the first chunk of a message is delivered.
structure Entry (invariant : List RxEvent → VideoReceiver → Prop) : Prop where
  activate : ∀ seen rx epoch, rx.activeEpoch = none → invariant seen rx →
    invariant seen { rx with activeEpoch := some epoch }
  enter : ∀ seen rx epoch nowMs, invariant seen rx →
    invariant (seen ++ [RxEvent.discontinuity epoch .epochTransition])
      (rx.enterEpoch epoch nowMs).reset
  decodes : ∀ seen rx symbol, invariant seen rx → invariant seen (rx.decode symbol)
  lose : ∀ seen rx epoch, invariant seen rx →
    invariant (seen ++ [RxEvent.discontinuity epoch .fecEviction]) rx.reset

theorem Entry.start {invariant : List RxEvent → VideoReceiver → Prop} (entry : Entry invariant)
    {seen : List RxEvent} {rx : VideoReceiver} {arrival : Arrival} {nowMs : Nat}
    (initial : invariant seen rx)
    (accepted : rx.acceptEpoch arrival.message.epoch arrival.message.isV2 nowMs =
      some arrival.entered) :
    invariant (seen ++ arrival.start.2) arrival.start.1 ∧
      arrival.start.1.activeEpoch = some arrival.message.epoch := by
  have entered : invariant (seen ++ arrival.entered.2) arrival.entered.1 ∧
      arrival.entered.1.activeEpoch = some arrival.message.epoch := by
    obtain ⟨fresh, entered⟩ | ⟨same, entered⟩ | ⟨-, entered⟩ := acceptEpoch_cases accepted
    · rw [entered]
      exact ⟨by simpa using entry.activate seen rx arrival.message.epoch fresh initial, rfl⟩
    · rw [entered]
      exact ⟨by simpa using initial, same⟩
    · rw [entered]
      exact ⟨entry.enter seen rx arrival.message.epoch nowMs initial, rfl⟩
  have decoded := entry.decodes _ _ arrival.message.symbol entered.1
  rw [Arrival.start, Runs.andThen, ← List.append_assoc, discontinueOnLoss]
  split_ifs
  · exact ⟨entry.lose _ _ arrival.message.epoch decoded, entered.2⟩
  · exact ⟨by simpa using decoded, entered.2⟩

/-- The rule for invariants of whole calls. -/
theorem call_keeps {invariant : List RxEvent → VideoReceiver → Prop} (entry : Entry invariant)
    (intake : ∀ seen rx epoch isV2 chunks emitted next, rx.activeEpoch = some epoch →
      invariant seen rx → Intake epoch isV2 chunks rx emitted next →
      invariant (seen ++ emitted) next)
    (release : ∀ seen rx emitted next, invariant seen rx → Release rx emitted next →
      invariant (seen ++ emitted) next)
    (poll : ∀ seen rx, invariant seen rx → invariant seen { rx with needsIdr := false })
    (seen : List RxEvent) (rx : VideoReceiver) (call : RxCall) (initial : invariant seen rx) :
    invariant (seen ++ (rx.call call).2) (rx.call call).1 := by
  cases call with
  | onMessage buf nowMs =>
    obtain ⟨-, ignored⟩ | ⟨arrival, middle, taken, given, -, accepted, taking, giving, emitted⟩ :=
      rx.onMessage_cases buf nowMs
    · simpa [call, ignored] using initial
    · have delivered := taking.keeps
        (fun seen rx => invariant seen rx ∧ rx.activeEpoch = some arrival.message.epoch)
        (fun seen rx emitted next held move =>
          ⟨intake seen rx _ _ _ emitted next held.2 held.1 move, move.activeEpoch.trans held.2⟩)
        _ (entry.start initial accepted)
      have released := giving.keeps invariant release _ delivered.1
      simp only [call, emitted]
      simpa [List.append_assoc] using released
  | tickEvents nowMs => exact (rx.tickEvents_path nowMs).keeps invariant release seen initial
  | tick nowMs => exact release seen rx _ _ initial (.ack rx nowMs)
  | pollNeedsIdr => simpa [call, pollNeedsIdr] using poll seen rx initial

end VideoReceiver

end BetterParsec
