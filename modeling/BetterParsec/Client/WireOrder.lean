import BetterParsec.Client.RxCore
import BetterParsec.Video.Gate

set_option autoImplicit false
set_option linter.all false

/-!
# Wire order

Whether events reach the frame queue and the ACK latch in the order in which the
receiver returned them. They do as long as no caller consumes an event past an
older one of the other caller.
-/

namespace BetterParsec

namespace CoreLog

def returnedEvent : CoreLog → Option RxEvent
  | .returned event => some event
  | .consumed _ | .pushed _ => none

def consumedEvent : CoreLog → Option RxEvent
  | .consumed event => some event
  | .returned _ | .pushed _ => none

def pushedEvent : CoreLog → Option RxEvent
  | .pushed event => some event
  | .returned _ | .consumed _ => none

def returns (log : List CoreLog) : List RxEvent := log.filterMap returnedEvent

def consumes (log : List CoreLog) : List RxEvent := log.filterMap consumedEvent

-- The frames and discontinuities that entered the queue, in order.
def pushes (log : List CoreLog) : List RxEvent := log.filterMap pushedEvent

-- The values that `pending_ack` took, in order.
def latches (log : List CoreLog) : List UInt32 := acksOf (consumes log)

end CoreLog

def streamsOf (events : List RxEvent) : List RxEvent :=
  events.filter (fun event => event.ackOf.isNone)

@[simp] theorem streamsOf_append (first second : List RxEvent) :
    streamsOf (first ++ second) = streamsOf first ++ streamsOf second :=
  List.filter_append first second

-- What the key gate of a version 2 generation lets through: nothing but discontinuities before
-- the first key frame.
def gateStep (gated : Bool) : RxEvent → Bool × List RxEvent
  | .frame unit => if gated && !unit.isKey then (gated, []) else (false, [.frame unit])
  | .discontinuity epoch reason => (gated, [.discontinuity epoch reason])
  | .ack _ => (gated, [])

def keyGate (gated : Bool) (events : List RxEvent) : List RxEvent :=
  (Runs.run gateStep gated events).2

theorem run_gateStep_streams (gated : Bool) (events : List RxEvent) :
    Runs.run gateStep gated (streamsOf events) = Runs.run gateStep gated events := by
  induction events generalizing gated with
  | nil => rfl
  | cons event rest ih =>
    cases event with
    | frame unit | discontinuity epoch reason =>
      simp only [streamsOf, RxEvent.ackOf, List.filter_cons, Option.isNone_none, if_true, Runs.run]
      rw [← ih]
      rfl
    | ack seq =>
      simp only [streamsOf, RxEvent.ackOf, List.filter_cons, Option.isNone_some,
        Bool.false_eq_true, if_false, Runs.run, gateStep, List.nil_append]
      exact ih gated

theorem pushFrame_cases (queue : FrameQueue) (unit : DecodeUnit) :
    queue.state.closed = true ∧ queue.pushFrameReportingOverflow unit = (queue, none) ∨
      queue.state.closed = false ∧ ∃ next push,
        queue.pushFrameReportingOverflow unit = (next, some push) ∧ next.state.closed = false := by
  unfold FrameQueue.pushFrameReportingOverflow
  cases closed : queue.state.closed with
  | true => exact Or.inl ⟨rfl, by simp⟩
  | false =>
    refine Or.inr ⟨rfl, ?_⟩
    simp only [Bool.false_eq_true, if_false]
    split_ifs
    · exact ⟨_, _, rfl, closed⟩
    · exact ⟨_, _, rfl, closed⟩

theorem pushDiscontinuity_cases (queue : FrameQueue) (epoch : UInt32)
    (reason : DiscontinuityReason) :
    queue.state.closed = true ∧ queue.pushDiscontinuity epoch reason = (queue, none) ∨
      queue.state.closed = false ∧ ∃ next generation,
        queue.pushDiscontinuity epoch reason = (next, some generation) ∧
          next.state.closed = false := by
  unfold FrameQueue.pushDiscontinuity
  cases closed : queue.state.closed with
  | true => exact Or.inl ⟨rfl, by simp⟩
  | false =>
    refine Or.inr ⟨rfl, ?_⟩
    simp only [Bool.false_eq_true, if_false]
    refine ⟨_, _, rfl, ?_⟩
    split_ifs
    · exact closed
    · exact closed

-- What consuming one event does to the core: the gate moves as `gateStep`, an open queue takes
-- what it lets through, and the receiver and the codec stay.
structure Consumed (core : RxCore) (event : RxEvent) (outcome : RxCore × Option RxEvent) : Prop where
  rx : outcome.1.rx = core.rx
  codec : outcome.1.fecCodec = core.fecCodec
  configured : outcome.1.fecConfigured = core.fecConfigured
  closed : outcome.1.queue.state.closed = core.queue.state.closed
  gate : outcome.1.v2KeyGate = (gateStep core.v2KeyGate event).1
  pushed : outcome.2.toList =
    if core.queue.state.closed then [] else (gateStep core.v2KeyGate event).2

theorem consumeEvent_consumed (core : RxCore) (event : RxEvent) :
    Consumed core event (core.consumeEvent event) := by
  cases event with
  | ack => constructor <;> simp [RxCore.consumeEvent, gateStep]
  | frame unit =>
    cases gated : core.v2KeyGate && !unit.isKey with
    | true => constructor <;> simp [RxCore.consumeEvent, gateStep, gated]
    | false =>
      obtain ⟨closed, push⟩ | ⟨closed, next, found, push, same⟩ := pushFrame_cases core.queue unit
      · constructor <;> simp [RxCore.consumeEvent, gateStep, gated, push, closed]
      · constructor <;> simp [RxCore.consumeEvent, gateStep, gated, push, closed, same]
  | discontinuity epoch reason =>
    obtain ⟨closed, push⟩ | ⟨closed, next, found, push, same⟩ :=
      pushDiscontinuity_cases core.queue epoch reason
    · constructor <;> simp [RxCore.consumeEvent, gateStep, push, closed]
    · constructor <;> simp [RxCore.consumeEvent, gateStep, push, closed, same]

-- The epoch under which the receiver counts the messages of the codec.
def FecCodec.streamEpoch : FecCodec → UInt32
  | .v2 epoch => epoch.get
  | .v1 | .unconfigured => 0

theorem parseV2Source_epoch {buf : List UInt8} {symbol : V2Symbol}
    (read : parseV2Source buf = .ok symbol) :
    (VideoReceiver.symbolOf (.v2 symbol)).epoch = u32At buf 1 := by
  unfold parseV2Source at read
  cases entered : Epoch.new (u32At buf 1) with
  | none =>
    simp only [entered] at read
    split_ifs at read
  | some epoch =>
    simp only [entered] at read
    split_ifs at read
    cases read
    exact Epoch.get_new entered

theorem parseV2Repair_epoch {buf : List UInt8} {symbol : V2Symbol}
    (read : parseV2Repair buf = .ok symbol) :
    (VideoReceiver.symbolOf (.v2 symbol)).epoch = u32At buf 1 := by
  unfold parseV2Repair at read
  cases entered : Epoch.new (u32At buf 1) with
  | none =>
    simp only [entered] at read
    split_ifs at read
  | some epoch =>
    simp only [entered] at read
    split_ifs at read
    cases read
    exact Epoch.get_new entered

theorem acceptsMessage_epoch {core : RxCore} {bytes : List UInt8} {parsed : ParsedSymbolMsg}
    (accepted : core.acceptsMessage bytes) (read : parseSymbolMsgVersioned bytes = .ok parsed) :
    (VideoReceiver.symbolOf parsed).epoch = core.fecCodec.streamEpoch := by
  unfold RxCore.acceptsMessage at accepted
  cases bytes with
  | nil => simp [parseSymbolMsgVersioned] at read
  | cons kind rest =>
    cases codec : core.fecCodec with
    | unconfigured => simp [codec] at accepted
    | v1 =>
      simp only [codec, List.head?_cons, Option.some.injEq, Bool.or_eq_true, decide_eq_true_eq]
        at accepted
      unfold parseSymbolMsgVersioned at read
      obtain rfl | rfl := accepted
      · simp only [if_true] at read
        split_ifs at read
        cases read
        rfl
      · dsimp only at read
        rw [if_neg (by decide), if_pos rfl] at read
        split_ifs at read
        cases read
        rfl
    | v2 epoch =>
      simp only [codec, List.head?_cons, Option.some.injEq, Bool.or_eq_true, Bool.and_eq_true,
        decide_eq_true_eq] at accepted
      obtain ⟨⟨kinds, -⟩, value⟩ := accepted
      unfold parseSymbolMsgVersioned at read
      dsimp only at read
      obtain rfl | rfl := kinds
      · rw [if_neg (by decide), if_neg (by decide), if_pos rfl] at read
        cases inner : parseV2Source (2 :: rest) with
        | error => simp [inner, Except.map] at read
        | ok symbol =>
          rw [inner] at read
          cases read
          exact (parseV2Source_epoch inner).trans value
      · rw [if_neg (by decide), if_neg (by decide), if_neg (by decide), if_pos rfl] at read
        cases inner : parseV2Repair (3 :: rest) with
        | error => simp [inner, Except.map] at read
        | ok symbol =>
          rw [inner] at read
          cases read
          exact (parseV2Repair_epoch inner).trans value

namespace VideoReceiver

structure Serial (epoch : UInt32) (acks : List UInt32) (rx : VideoReceiver) : Prop where
  active : ∀ other, rx.activeEpoch = some other → other = epoch
  last : rx.lastAckedHighest = acks.getLast?
  forward : Forward acks

theorem any_rule : Session.Rule (fun _ => True) (fun _ _ => True) (fun _ _ => True) :=
  ⟨trivial, fun _ _ _ _ _ => trivial, fun _ _ _ _ _ => trivial, fun _ _ _ _ => trivial⟩

/-- A call that does not leave the epoch extends its ACKs. -/
theorem Serial.call {epoch : UInt32} {acks : List UInt32} {rx : VideoReceiver}
    (serial : rx.Serial epoch acks) (input : RxCall)
    (stays : (rx.call input).1.activeEpoch = rx.activeEpoch ∨
      (rx.call input).1.activeEpoch = some epoch) :
    (rx.call input).1.Serial epoch (acks ++ acksOf (rx.call input).2) := by
  have sound : Session.Sound (fun _ _ => True) (fun _ _ => True) ⟨rx, [], acks⟩ :=
    ⟨trivial, serial.last, serial.forward, fun _ _ => trivial⟩
  have called := sound.call any_rule input (by cases input <;> simp [RxCall.Carries])
  have kept : Session.renews ⟨rx, [], acks⟩ input = false := by
    cases active : rx.activeEpoch with
    | none => simp [Session.renews, active]
    | some current =>
      have same := serial.active current active
      obtain stays | stays := stays
      · simp [Session.renews, stays]
      · simp [Session.renews, stays, active, same]
  have last := called.last
  have forward := called.forward
  simp only [Session.call, kept, Bool.false_eq_true, if_false] at last forward
  refine ⟨fun other active => ?_, last, forward⟩
  obtain stays | stays := stays
  · exact serial.active other (stays ▸ active)
  · rw [stays] at active
    exact (Option.some.inj active).symm

theorem onMessage_activeEpoch (rx : VideoReceiver) (buf : List UInt8) (nowMs : Nat)
    {epoch : UInt32} (carries : ∀ parsed, parseSymbolMsgVersioned buf = .ok parsed →
      (symbolOf parsed).epoch = epoch) :
    (rx.onMessage buf nowMs).1.activeEpoch = rx.activeEpoch ∨
      (rx.onMessage buf nowMs).1.activeEpoch = some epoch := by
  obtain ⟨-, ignored⟩ | ⟨arrival, middle, taken, given, arrived, accepted, taking, giving, -⟩ :=
    rx.onMessage_cases buf nowMs
  · exact Or.inl (by rw [ignored])
  · right
    obtain ⟨parsed, read, same⟩ := arrival_parsed arrived
    have entry : Entry (fun _ _ => True) := by
      refine ⟨?_, ?_, ?_, ?_⟩ <;> intros <;> trivial
    have started := (@Entry.start _ entry [] _ _ _ trivial accepted).2
    have moved := taking.keeps (fun _ rx => rx.activeEpoch = some arrival.message.epoch)
      (fun _ _ _ _ held move => move.activeEpoch.trans held) [] started
    have released := giving.keeps (fun _ rx => rx.activeEpoch = some arrival.message.epoch)
      (fun _ _ _ _ held move => move.activeEpoch.trans held) [] moved
    rw [released, ← same, carries parsed read]

theorem tickEvents_activeEpoch (rx : VideoReceiver) (nowMs : Nat) :
    (rx.tickEvents nowMs).1.activeEpoch = rx.activeEpoch :=
  (rx.tickEvents_path nowMs).keeps (fun _ next => next.activeEpoch = rx.activeEpoch)
    (fun _ _ _ _ held move => move.activeEpoch.trans held) [] rfl

end VideoReceiver

namespace RxSystem

-- A caller consumes an event only if the other one has no older event of its kind, ACK or not.
def InTurn (system : RxSystem) : CoreStep → Prop
  | .consume caller => ∀ found ∈ takeNext caller system.outstanding,
      ∀ entry ∈ found.1, entry.2.ackOf.isSome ≠ found.2.1.ackOf.isSome
  | _ => True

instance decidableInTurn (system : RxSystem) (step : CoreStep) : Decidable (system.InTurn step) :=
  match step with
  | .consume caller =>
      match next : takeNext caller system.outstanding with
      | none => .isTrue (fun found member => by
          rw [next] at member
          cases member)
      | some found =>
          decidable_of_iff (∀ entry ∈ found.1, entry.2.ackOf.isSome ≠ found.2.1.ackOf.isSome)
            ⟨fun apart other member => by
              rw [next] at member
              cases member
              exact apart, fun inTurn => inTurn found next⟩
  | .configureFec _ _ | .onMessage _ _ | .tick _ | .pollAck | .pollNeedsIdr | .requestIdr
  | .takeDiscontinuity | .tryEvent | .acknowledgeDecodedKey _ _ | .closeQueue => .isTrue trivial

theorem takeNext_split {caller : RxCaller} {outstanding before after : List (RxCaller × RxEvent)}
    {event : RxEvent} (next : takeNext caller outstanding = some (before, event, after)) :
    outstanding = before ++ (caller, event) :: after := by
  induction outstanding generalizing before with
  | nil => simp [takeNext] at next
  | cons entry rest ih =>
    obtain ⟨owner, first⟩ := entry
    unfold takeNext at next
    split_ifs at next with own
    · cases next
      rw [own, List.nil_append]
    · obtain ⟨found, inner, same⟩ := Option.map_eq_some_iff.mp next
      obtain ⟨earlier, event, later⟩ := found
      cases same
      rw [ih inner, List.cons_append]

-- The events that wait for their caller, oldest first.
def waiting (system : RxSystem) : List RxEvent := system.outstanding.map (·.2)

-- Everything was consumed in order, kind by kind, and pushed as far as the gate and the queue let
-- it; and the receiver has stayed in one epoch.
structure InOrder (log : List CoreLog) (system : RxSystem) : Prop where
  streams : streamsOf (CoreLog.returns log) =
    streamsOf (CoreLog.consumes log) ++ streamsOf system.waiting
  acks : acksOf (CoreLog.returns log) = CoreLog.latches log ++ acksOf system.waiting
  gate : system.core.v2KeyGate =
    (Runs.run gateStep system.core.fecCodec.isV2 (CoreLog.consumes log)).1
  passed : CoreLog.pushes log <+: keyGate system.core.fecCodec.isV2 (CoreLog.consumes log)
  whole : system.core.queue.state.closed = false →
    CoreLog.pushes log = keyGate system.core.fecCodec.isV2 (CoreLog.consumes log)
  serial : system.core.rx.Serial system.core.fecCodec.streamEpoch (acksOf (CoreLog.returns log))
  idle : system.core.fecCodec = .unconfigured →
    log = [] ∧ system.outstanding = [] ∧ system.core.rx = .new 0
  configured : system.core.fecConfigured = false → system.core.fecCodec = .unconfigured

theorem inOrder_start (core : RxCore) : (start core).InOrder [] := by
  refine ⟨rfl, rfl, rfl, List.prefix_rfl, fun _ => rfl, ⟨by simp [start, RxCore.beginFecNegotiation,
    VideoReceiver.new], rfl, List.isChain_nil⟩, fun _ => ⟨rfl, rfl, rfl⟩, fun _ => rfl⟩

variable {log : List CoreLog} {system : RxSystem}

/-- A step that leaves the codec, the gate and the epoch of the receiver alone. -/
theorem InOrder.onCore (held : system.InOrder log) {core : RxCore}
    (codec : core.fecCodec = system.core.fecCodec)
    (configured : core.fecConfigured = system.core.fecConfigured)
    (gate : core.v2KeyGate = system.core.v2KeyGate)
    (closed : core.queue.state.closed = false → system.core.queue.state.closed = false)
    (active : core.rx.activeEpoch = system.core.rx.activeEpoch)
    (last : core.rx.lastAckedHighest = system.core.rx.lastAckedHighest)
    (fresh : system.core.rx = .new 0 → core.rx = .new 0) :
    (system.onCore core).1.InOrder (log ++ (system.onCore core).2) := by
  rw [RxSystem.onCore, List.append_nil]
  refine ⟨held.streams, held.acks, ?_, ?_, fun opened => ?_, ⟨fun other is => ?_, ?_,
    held.serial.forward⟩, fun none => ?_, fun unset => ?_⟩
  · rw [gate, codec]
    exact held.gate
  · rw [codec]
    exact held.passed
  · rw [codec]
    exact held.whole (closed opened)
  · rw [codec]
    exact held.serial.active other (active ▸ is)
  · exact last.trans held.serial.last
  · obtain ⟨empty, settled, new⟩ := held.idle (codec ▸ none)
    exact ⟨empty, settled, fresh new⟩
  · exact codec.trans (held.configured (configured ▸ unset))

theorem InOrder.configureFec (held : system.InOrder log) (version : UInt8)
    (epoch : Option Epoch) :
    (system.onCore (system.core.configureFec version epoch).1).1.InOrder
      (log ++ (system.onCore (system.core.configureFec version epoch).1).2) := by
  unfold RxCore.configureFec
  cases RxCore.negotiated version epoch with
  | none => exact held.onCore rfl rfl rfl id rfl rfl id
  | some codec =>
    cases set : system.core.fecConfigured with
    | true =>
      simp only [if_true]
      exact held.onCore rfl rfl rfl id rfl rfl id
    | false =>
      -- The first configuration of a generation: nothing has happened yet.
      obtain ⟨rfl, settled, new⟩ := held.idle (held.configured set)
      have waiting : system.waiting = [] := by simp [RxSystem.waiting, settled]
      simp only [Bool.false_eq_true, if_false]
      refine ⟨?_, ?_, rfl, List.prefix_rfl, fun _ => rfl, ⟨?_, ?_, List.isChain_nil⟩, fun _ => ?_,
        fun unset => by simp [RxSystem.onCore] at unset⟩
      · exact held.streams
      · exact held.acks
      · simp [RxSystem.onCore, new, VideoReceiver.new]
      · simp [RxSystem.onCore, new, VideoReceiver.new, CoreLog.returns, acksOf]
      · exact ⟨rfl, settled, new⟩

theorem InOrder.receive (held : system.InOrder log) (caller : RxCaller)
    {outcome : VideoReceiver × List RxEvent}
    (serial : outcome.1.Serial system.core.fecCodec.streamEpoch
      (acksOf (CoreLog.returns log) ++ acksOf outcome.2))
    (fresh : system.core.fecCodec = .unconfigured → outcome = (.new 0, [])) :
    (system.receive caller outcome).1.InOrder (log ++ (system.receive caller outcome).2) := by
  have returned : CoreLog.returns (log ++ outcome.2.map .returned) =
      CoreLog.returns log ++ outcome.2 := by
    simp [CoreLog.returns, List.filterMap_append, List.filterMap_map, Function.comp_def,
      CoreLog.returnedEvent]
  have consumed : CoreLog.consumes (log ++ outcome.2.map .returned) = CoreLog.consumes log := by
    simp [CoreLog.consumes, List.filterMap_append, List.filterMap_map, Function.comp_def,
      CoreLog.consumedEvent]
  have pushed : CoreLog.pushes (log ++ outcome.2.map .returned) = CoreLog.pushes log := by
    simp [CoreLog.pushes, List.filterMap_append, List.filterMap_map, Function.comp_def,
      CoreLog.pushedEvent]
  have waiting : (system.receive caller outcome).1.waiting = system.waiting ++ outcome.2 := by
    simp [RxSystem.receive, RxSystem.waiting, List.map_map, Function.comp_def]
  have logged : (system.receive caller outcome).2 = outcome.2.map .returned := rfl
  rw [logged]
  refine ⟨?_, ?_, ?_, ?_, ?_, ?_, fun none => ?_, held.configured⟩
  · rw [returned, consumed, waiting, streamsOf_append, streamsOf_append, held.streams,
      List.append_assoc]
  · rw [returned, CoreLog.latches, consumed, waiting, acksOf_append, acksOf_append, held.acks,
      List.append_assoc]
    rfl
  · rw [consumed]
    exact held.gate
  · rw [consumed, pushed]
    exact held.passed
  · rw [consumed, pushed]
    exact held.whole
  · rw [returned, acksOf_append]
    exact serial
  · obtain ⟨rfl, settled, -⟩ := held.idle none
    rw [fresh none]
    simp [RxSystem.receive, settled]

/-- An event that is in turn is the first of its kind. -/
theorem first_of_kind {before after : List RxEvent} {event : RxEvent}
    (inTurn : ∀ other ∈ before, other.ackOf.isSome ≠ event.ackOf.isSome) :
    streamsOf (before ++ event :: after) = streamsOf [event] ++ streamsOf (before ++ after) ∧
      acksOf (before ++ event :: after) = acksOf [event] ++ acksOf (before ++ after) := by
  rw [List.append_cons, streamsOf_append, streamsOf_append, acksOf_append, acksOf_append,
    streamsOf_append, acksOf_append]
  cases kind : event.ackOf with
  | none =>
    have noStreams : streamsOf before = [] := by
      rw [streamsOf, List.filter_eq_nil_iff]
      intro other member
      have ack := inTurn other member
      cases found : other.ackOf <;> simp_all
    have noAck : acksOf [event] = [] := by simp [acksOf, kind]
    rw [noStreams, noAck]
    simp
  | some seq =>
    have noAcks : acksOf before = [] := by
      rw [acksOf, List.filterMap_eq_nil_iff]
      intro other member
      have stream := inTurn other member
      cases found : other.ackOf <;> simp_all
    have noStream : streamsOf [event] = [] := by simp [streamsOf, kind]
    rw [noAcks, noStream]
    simp

theorem InOrder.consume (held : system.InOrder log) (caller : RxCaller)
    (inTurn : system.InTurn (.consume caller)) :
    (system.consume caller).1.InOrder (log ++ (system.consume caller).2) := by
  unfold RxSystem.consume
  cases next : takeNext caller system.outstanding with
  | none => simpa using held
  | some found =>
    obtain ⟨before, event, after⟩ := found
    dsimp only
    have outcome := consumeEvent_consumed system.core event
    generalize system.core.consumeEvent event = consumed at outcome ⊢
    obtain ⟨core, pushed⟩ := consumed
    have split := takeNext_split next
    have waiting : system.waiting = before.map (·.2) ++ event :: after.map (·.2) := by
      rw [RxSystem.waiting, split, List.map_append, List.map_cons]
    obtain ⟨streams, acks⟩ : streamsOf system.waiting = _ ∧ acksOf system.waiting = _ := by
      rw [waiting]
      apply first_of_kind
      intro other member
      obtain ⟨entry, inside, rfl⟩ := List.mem_map.mp member
      exact inTurn (before, event, after) next entry inside
    have rest : RxSystem.waiting ⟨core, before ++ after⟩ = before.map (·.2) ++ after.map (·.2) :=
      List.map_append
    have returns : CoreLog.returns (log ++ CoreLog.consumed event :: pushed.toList.map .pushed) =
        CoreLog.returns log := by
      simp [CoreLog.returns, CoreLog.returnedEvent]
    have consumes : CoreLog.consumes (log ++ CoreLog.consumed event :: pushed.toList.map .pushed) =
        CoreLog.consumes log ++ [event] := by
      simp [CoreLog.consumes, List.filterMap_append, List.filterMap_map, Function.comp_def,
        CoreLog.consumedEvent]
    have pushes : CoreLog.pushes (log ++ CoreLog.consumed event :: pushed.toList.map .pushed) =
        CoreLog.pushes log ++ pushed.toList := by
      rw [CoreLog.pushes, List.filterMap_append]
      cases pushed <;> rfl
    have gated : Runs.run gateStep core.fecCodec.isV2 (CoreLog.consumes log ++ [event]) =
        ((gateStep system.core.v2KeyGate event).1,
          keyGate core.fecCodec.isV2 (CoreLog.consumes log) ++
            (gateStep system.core.v2KeyGate event).2) := by
      rw [Runs.run_append, outcome.codec, ← held.gate]
      simp [Runs.run, keyGate]
    refine ⟨?_, ?_, ?_, ?_, fun opened => ?_, ?_, fun none => ?_, fun unset => ?_⟩
    · rw [returns, consumes, rest, held.streams, streams, streamsOf_append (CoreLog.consumes log),
        List.append_assoc]
    · rw [returns, CoreLog.latches, consumes, rest, held.acks, acks,
        acksOf_append (CoreLog.consumes log), List.append_assoc]
      rfl
    · rw [consumes, gated]
      exact outcome.gate
    · rw [consumes, pushes, keyGate, gated, outcome.pushed, outcome.codec]
      cases closed : system.core.queue.state.closed with
      | true => simpa using held.passed.trans (List.prefix_append _ _)
      | false => simp [held.whole closed]
    · have closed := outcome.closed.symm.trans opened
      rw [consumes, pushes, keyGate, gated, outcome.pushed, outcome.codec, held.whole closed, closed]
      rfl
    · rw [returns, outcome.rx, outcome.codec]
      exact held.serial
    · obtain ⟨-, settled, -⟩ := held.idle (outcome.codec ▸ none)
      simp [settled] at split
    · exact outcome.codec.trans (held.configured (outcome.configured ▸ unset))

theorem InOrder.onMessage (held : system.InOrder log) (bytes : List UInt8) (nowMs : Nat)
    (accepted : system.core.acceptsMessage bytes) :
    (system.receive .dataChannel (system.core.rx.onMessage bytes nowMs)).1.InOrder
      (log ++ (system.receive .dataChannel (system.core.rx.onMessage bytes nowMs)).2) := by
  apply held.receive
  · apply held.serial.call (.onMessage bytes nowMs)
    exact system.core.rx.onMessage_activeEpoch bytes nowMs
      (fun _ read => acceptsMessage_epoch accepted read)
  · intro none
    simp [RxCore.acceptsMessage, none] at accepted

theorem InOrder.tick (held : system.InOrder log) (nowMs : Nat) :
    (system.receive .session (system.core.rx.tickEvents nowMs)).1.InOrder
      (log ++ (system.receive .session (system.core.rx.tickEvents nowMs)).2) := by
  apply held.receive
  · apply held.serial.call (.tickEvents nowMs)
    exact Or.inl (system.core.rx.tickEvents_activeEpoch nowMs)
  · intro none
    rw [(held.idle none).2.2]
    rfl

theorem InOrder.step (held : system.InOrder log) (step : CoreStep) (inTurn : system.InTurn step) :
    (system.step step).1.InOrder (log ++ (system.step step).2) := by
  cases step with
  | configureFec version epoch => exact held.configureFec version epoch
  | onMessage bytes nowMs =>
    rw [RxSystem.step]
    cases refused : system.busy .dataChannel || !system.core.acceptsMessage bytes with
    | true => simpa using held
    | false =>
      rw [Bool.or_eq_false_iff, Bool.not_eq_false'] at refused
      exact held.onMessage bytes nowMs refused.2
  | tick nowMs =>
    rw [RxSystem.step]
    cases system.busy .session with
    | true => simpa using held
    | false => exact held.tick nowMs
  | consume caller => exact held.consume caller inTurn
  | pollNeedsIdr =>
    rw [RxSystem.step]
    refine held.onCore rfl rfl rfl id rfl rfl ?_
    intro fresh
    change system.core.rx.pollNeedsIdr.1 = _
    rw [fresh]
    rfl
  | tryEvent =>
    refine held.onCore rfl rfl rfl ?_ rfl rfl id
    unfold FrameQueue.tryEvent
    cases system.core.queue.state.events <;> exact id
  | acknowledgeDecodedKey generation epoch =>
    refine held.onCore rfl rfl rfl ?_ rfl rfl id
    unfold FrameQueue.acknowledgeRecovery
    split_ifs <;> exact id
  | closeQueue =>
    refine held.onCore rfl rfl rfl ?_ rfl rfl id
    simp [FrameQueue.close]
  | pollAck | requestIdr | takeDiscontinuity => exact held.onCore rfl rfl rfl id rfl rfl id

theorem InOrder.pushes (held : system.InOrder log) :
    CoreLog.pushes log <+: keyGate system.core.fecCodec.isV2 (CoreLog.returns log) ∧
      (system.outstanding = [] → system.core.queue.state.closed = false →
        CoreLog.pushes log = keyGate system.core.fecCodec.isV2 (CoreLog.returns log)) := by
  have consumed := run_gateStep_streams system.core.fecCodec.isV2 (CoreLog.consumes log)
  have returned := run_gateStep_streams system.core.fecCodec.isV2 (CoreLog.returns log)
  rw [held.streams, Runs.run_append, consumed] at returned
  rw [keyGate, ← returned]
  refine ⟨held.passed.trans (List.prefix_append _ _), fun settled opened => ?_⟩
  have waiting : system.waiting = [] := by simp [RxSystem.waiting, settled]
  rw [held.whole opened, waiting]
  simp [keyGate, streamsOf, Runs.run]

-- The frames and discontinuities entered the queue in the order in which the receiver returned
-- them, less what the key gate held back, and each value of `pending_ack` is serially newer than
-- the one before it.
structure WireOrdered (log : List CoreLog) (system : RxSystem) : Prop where
  passed : CoreLog.pushes log <+: keyGate system.core.fecCodec.isV2 (CoreLog.returns log)
  whole : system.outstanding = [] → system.core.queue.state.closed = false →
    CoreLog.pushes log = keyGate system.core.fecCodec.isV2 (CoreLog.returns log)
  newer : Forward (CoreLog.latches log)

theorem InOrder.wireOrdered (held : system.InOrder log) : system.WireOrdered log := by
  obtain ⟨passed, whole⟩ := held.pushes
  refine ⟨passed, whole, ?_⟩
  have forward := held.serial.forward
  rw [held.acks] at forward
  exact forward.left_of_append

/-- Where every event is consumed in turn, wire order is kept. -/
theorem run_in_wire_order (core : RxCore) (steps : List CoreStep)
    (inTurn : Runs.Along step (fun _ system step => system.InTurn step) [] (start core) steps) :
    (Runs.run step (start core) steps).1.WireOrdered (Runs.run step (start core) steps).2 := by
  have held := Runs.run_invariant step _ (fun log system => system.InOrder log)
    (fun _ _ step held inTurn => held.step step inTurn) [] (start core) steps (inOrder_start core)
    inTurn
  exact held.wireOrdered

-- A session of epoch 1 up to the tick that gives up on the frames before frame 5.
def giveUpGap : List CoreStep :=
  [.configureFec 2 (some ⟨1, by decide⟩),
    .onMessage (VideoReceiver.soloMessage 0 0 true [1] (ieeeCrc32 [1])) 0, .consume .dataChannel,
    .onMessage (VideoReceiver.soloMessage 1 5 false [2] (ieeeCrc32 [2])) 1, .tick 200]

-- The key frame 9 that arrives next, as the callback receives it.
def keyArrives : CoreStep :=
  .onMessage (VideoReceiver.soloMessage 2 9 true [3] (ieeeCrc32 [3])) 201

/-- The tick consumes its discontinuity before the callback consumes the key frame. -/
theorem run_in_wire_order_gap :
    (Runs.run step (start (.new 0)) (giveUpGap ++
        [keyArrives, .consume .session, .consume .dataChannel, .consume .session])).1.WireOrdered
      (Runs.run step (start (.new 0)) (giveUpGap ++
        [keyArrives, .consume .session, .consume .dataChannel, .consume .session])).2 :=
  run_in_wire_order (.new 0) _ (by decide +kernel)

/-- The callback consumes the key frame before the tick consumes its discontinuity. -/
theorem run_frame_overtakes :
    ¬ (Runs.run step (start (.new 0))
        (giveUpGap ++ [keyArrives, .consume .dataChannel])).1.WireOrdered
      (Runs.run step (start (.new 0)) (giveUpGap ++ [keyArrives, .consume .dataChannel])).2 := by
  intro ordered
  have pushes : CoreLog.pushes (Runs.run step (start (.new 0))
      (giveUpGap ++ [keyArrives, .consume .dataChannel])).2 =
      [.frame ⟨0, 1, true, 0, 0, [1]⟩, .frame ⟨9, 1, true, 0, 0, [3]⟩] := by decide +kernel
  have passes : keyGate (Runs.run step (start (.new 0))
        (giveUpGap ++ [keyArrives, .consume .dataChannel])).1.core.fecCodec.isV2
      (CoreLog.returns (Runs.run step (start (.new 0))
        (giveUpGap ++ [keyArrives, .consume .dataChannel])).2) =
      [.frame ⟨0, 1, true, 0, 0, [1]⟩, .discontinuity 1 .reorderGap,
        .frame ⟨9, 1, true, 0, 0, [3]⟩] := by decide +kernel
  have passed := ordered.passed
  rw [pushes, passes] at passed
  revert passed
  decide

end RxSystem

end BetterParsec
