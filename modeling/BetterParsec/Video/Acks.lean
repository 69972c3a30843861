import BetterParsec.Fec.Frontier
import BetterParsec.Video.Moves

set_option autoImplicit false
set_option linter.all false

/-!
# Acknowledgements

The ACKs of one epoch only move forward, and each of them covers only seqs that
the decoder of that epoch has reported, so the sender retires nothing the
receiver still waits for.
-/

namespace BetterParsec

namespace FecEncoder

theorem evictWhile_retires (full : FecEncoder → Bool) (retire : WindowEntry → Prop)
    (head : ∀ encoder entry rest, full encoder → encoder.window = entry :: rest → retire entry)
    (fuel : Nat) (encoder : FecEncoder) :
    ∃ retired, encoder.window = retired ++ (encoder.evictWhile full fuel).window ∧
      ∀ entry ∈ retired, retire entry := by
  induction fuel generalizing encoder with
  | zero => exact ⟨[], rfl, by simp⟩
  | succ fuel ih =>
    rw [evictWhile]
    split_ifs with evicts
    · obtain ⟨retired, split, each⟩ := ih encoder.evictOldest
      cases window : encoder.window with
      | nil =>
        rw [evictOldest, window] at split
        exact ⟨retired, by rw [evictOldest, window, ← window]; simpa [window] using split, each⟩
      | cons entry rest =>
        refine ⟨entry :: retired, ?_, ?_⟩
        · simp only [evictOldest, window] at split
          simpa [evictOldest, window] using split
        · intro other member
          rcases List.mem_cons.mp member with rfl | member
          · exact head encoder _ rest evicts window
          · exact each other member
    · exact ⟨[], rfl, by simp⟩

/-- An ACK retires a front part of the window, entries at or before the acknowledged seq. -/
theorem acknowledge_retires (encoder : FecEncoder) (highest : UInt32) :
    ∃ retired, encoder.window = retired ++ (encoder.acknowledge highest).window ∧
      ∀ entry ∈ retired,
        serialCmp entry.seq highest = some .lt ∨ serialCmp entry.seq highest = some .eq := by
  unfold acknowledge
  cases encoder.window.getLast? with
  | none => exact ⟨[], rfl, by simp⟩
  | some back =>
    dsimp only
    split
    · exact ⟨[], rfl, by simp⟩
    · exact ⟨[], rfl, by simp⟩
    all_goals
      apply evictWhile_retires
      intro current entry rest evicts window
      rw [window, List.head?_cons] at evicts
      dsimp only at evicts
      cases order : serialCmp entry.seq highest with
      | none => simp [order] at evicts
      | some ordering => cases ordering <;> simp_all

end FecEncoder

theorem le_of_serialCmp {seq highest : UInt32} (half : seq < 0x80000000)
    (order : serialCmp seq highest = some .lt ∨ serialCmp seq highest = some .eq) :
    seq ≤ highest := by
  unfold serialCmp at order
  grind

def RxEvent.ackOf : RxEvent → Option UInt32
  | .ack seq => some seq
  | .frame _ | .discontinuity _ _ => none

def acksOf (events : List RxEvent) : List UInt32 := events.filterMap RxEvent.ackOf

@[simp] theorem acksOf_append (first second : List RxEvent) :
    acksOf (first ++ second) = acksOf first ++ acksOf second :=
  List.filterMap_append

-- Each ACK is RFC 1982-forward from the one before it.
def Forward (acks : List UInt32) : Prop :=
  acks.IsChain (fun earlier later => seqAdvanced later earlier)

theorem seqAdvanced_iff (candidate previous : UInt32) :
    seqAdvanced candidate previous ↔
      candidate - previous ≠ 0 ∧ candidate - previous < 0x80000000 := by
  simp [seqAdvanced]

theorem lt_of_seqAdvanced {earlier later : UInt32} (half : earlier < 0x80000000)
    (forward : seqAdvanced later earlier) : earlier < later := by
  rw [seqAdvanced_iff] at forward
  grind

theorem seqAdvanced_of_lt {earlier later : UInt32} (half : later < 0x80000000)
    (before : earlier < later) : seqAdvanced later earlier := by
  rw [seqAdvanced_iff]
  grind

/-- In the lower half range RFC 1982 order is transitive. -/
theorem Forward.pairwise {acks : List UInt32} (forward : Forward acks)
    (low : ∀ ack ∈ acks, ack < 0x80000000) :
    acks.Pairwise (fun earlier later => seqAdvanced later earlier) := by
  have increasing : acks.IsChain (· < ·) := by
    apply forward.imp_of_mem_imp
    intro earlier later first _ advanced
    exact lt_of_seqAdvanced (low earlier first) advanced
  have sorted : acks.Pairwise (· < ·) := List.isChain_iff_pairwise.mp increasing
  apply sorted.imp_of_mem
  intro earlier later _ second before
  exact seqAdvanced_of_lt (low later second) before

namespace VideoReceiver

-- The ACK state against the list of ACKs sent: those that are not `old` are the frontier of
-- `decoder`, which does not change.
structure Cadence (decoder : FecDecoder) (old acks : List UInt32) (rx : VideoReceiver) : Prop where
  same : rx.decoder = decoder
  last : rx.lastAckedHighest = acks.getLast?
  forward : Forward acks
  values : ∀ seq ∈ acks, seq ∈ old ∨ decoder.highestFullyDecoded = some seq

theorem Cadence.quiet {decoder : FecDecoder} {old acks : List UInt32} {rx next : VideoReceiver}
    {emitted : List RxEvent} (cadence : rx.Cadence decoder old acks)
    (same : next.decoder = rx.decoder) (last : next.lastAckedHighest = rx.lastAckedHighest)
    (none : acksOf emitted = []) : next.Cadence decoder old (acks ++ acksOf emitted) := by
  rw [none, List.append_nil]
  exact ⟨same.trans cadence.same, last.trans cadence.last, cadence.forward, cadence.values⟩

theorem Cadence.ack {decoder : FecDecoder} {old acks : List UInt32} {rx : VideoReceiver}
    (cadence : rx.Cadence decoder old acks) (nowMs : Nat) :
    (rx.ackEvents nowMs).1.Cadence decoder old (acks ++ acksOf (rx.ackEvents nowMs).2) := by
  unfold ackEvents tickAck
  cases current : rx.decoder.highestFullyDecoded with
  | none => exact cadence.quiet rfl rfl rfl
  | some highest =>
    dsimp only
    split_ifs with stale due
    · exact cadence.quiet rfl rfl rfl
    · change Cadence decoder old (acks ++ [highest]) _
      refine ⟨cadence.same, by simp, ?_, fun seq member => ?_⟩
      · rw [Forward, List.isChain_append]
        refine ⟨cadence.forward, by simp, fun earlier earlierLast later laterFirst => ?_⟩
        rw [← cadence.last] at earlierLast
        cases laterFirst
        simpa [Option.mem_def.mp earlierLast] using stale
      · rcases List.mem_append.mp member with before | now
        · exact cadence.values seq before
        · rw [List.mem_singleton.mp now, ← cadence.same]
          exact Or.inr current
    · exact cadence.quiet rfl rfl rfl

theorem Cadence.intake {decoder : FecDecoder} {old acks : List UInt32} {epoch : UInt32}
    {isV2 : Bool} {chunks : Chunk → Prop} {rx next : VideoReceiver} {emitted : List RxEvent}
    (cadence : rx.Cadence decoder old acks) (move : Intake epoch isV2 chunks rx emitted next) :
    next.Cadence decoder old (acks ++ acksOf emitted) := by
  cases move with
  | ack nowMs => exact cadence.ack nowMs
  | _ => exact cadence.quiet rfl rfl rfl

theorem Cadence.release {decoder : FecDecoder} {old acks : List UInt32} {rx next : VideoReceiver}
    {emitted : List RxEvent} (cadence : rx.Cadence decoder old acks)
    (move : Release rx emitted next) : next.Cadence decoder old (acks ++ acksOf emitted) := by
  cases move with
  | ack nowMs => exact cadence.ack nowMs
  | _ => exact cadence.quiet rfl rfl rfl

end VideoReceiver

-- The symbol of the message, if there is one, meets `allowed`.
def RxCall.Carries (allowed : Symbol → Prop) : RxCall → Prop
  | .onMessage buf _ => ∀ parsed, parseSymbolMsgVersioned buf = .ok parsed →
      allowed (VideoReceiver.symbolOf parsed).symbol
  | .tickEvents _ | .tick _ | .pollNeedsIdr => True

-- A receiver with what its decoder reported and what it acknowledged in the current epoch.
structure Session where
  receiver : VideoReceiver
  log : List DecoderEvent
  acks : List UInt32

namespace Session

def new (nowMs : Nat) : Session := ⟨.new nowMs, [], []⟩

def decoderEvents (session : Session) : RxCall → List DecoderEvent
  | .onMessage buf nowMs =>
      match session.receiver.arrival buf nowMs with
      | none => []
      | some arrival => arrival.events
  | .tickEvents _ | .tick _ | .pollNeedsIdr => []

-- The call moves an active receiver to another epoch.
def renews (session : Session) (call : RxCall) : Bool :=
  session.receiver.activeEpoch.isSome &&
    (session.receiver.call call).1.activeEpoch ≠ session.receiver.activeEpoch

def call (session : Session) (call : RxCall) : Session × List RxEvent :=
  let outcome := session.receiver.call call
  ({ receiver := outcome.1
     log := (if session.renews call then [] else session.log) ++ session.decoderEvents call
     acks := (if session.renews call then [] else session.acks) ++ acksOf outcome.2 },
    outcome.2)

-- An invariant of the decoders of a session, and what it makes of every frontier.
structure Rule (allowed : Symbol → Prop) (invariant : List DecoderEvent → FecDecoder → Prop)
    (good : List DecoderEvent → UInt32 → Prop) : Prop where
  fresh : invariant [] (.new rxDecoderMaxSymbols rxDecoderMaxBytes)
  pushes : ∀ log decoder symbol, invariant log decoder → allowed symbol →
    invariant (log ++ (decoder.pushSymbol symbol).2) (decoder.pushSymbol symbol).1
  frontier : ∀ log decoder ack, invariant log decoder →
    decoder.highestFullyDecoded = some ack → good log ack
  later : ∀ log more ack, good log ack → good (log ++ more) ack

-- Every ACK was forward, and the frontier of a decoder that met the invariant.
structure Sound (invariant : List DecoderEvent → FecDecoder → Prop)
    (good : List DecoderEvent → UInt32 → Prop) (session : Session) : Prop where
  decoder : invariant session.log session.receiver.decoder
  last : session.receiver.lastAckedHighest = session.acks.getLast?
  forward : Forward session.acks
  covered : ∀ ack ∈ session.acks, good session.log ack

section Calls

variable {allowed : Symbol → Prop} {invariant : List DecoderEvent → FecDecoder → Prop}
  {good : List DecoderEvent → UInt32 → Prop} {session : Session}

theorem Rule.sound (rule : Rule allowed invariant good) {rx : VideoReceiver} {decoder : FecDecoder}
    {log : List DecoderEvent} {old acks : List UInt32} (held : invariant log decoder)
    (covered : ∀ ack ∈ old, good log ack) (cadence : rx.Cadence decoder old acks) :
    Sound invariant good ⟨rx, log, acks⟩ := by
  refine ⟨cadence.same ▸ held, cadence.last, cadence.forward, fun ack member => ?_⟩
  rcases cadence.values ack member with before | frontier
  · exact covered ack before
  · exact rule.frontier log decoder ack held frontier

theorem Sound.cadence (sound : session.Sound invariant good) :
    session.receiver.Cadence session.receiver.decoder session.acks session.acks :=
  ⟨rfl, sound.last, sound.forward, fun _ member => Or.inl member⟩

theorem Sound.released (sound : session.Sound invariant good) (rule : Rule allowed invariant good)
    {next : VideoReceiver} {emitted : List RxEvent}
    (path : Runs.Path VideoReceiver.Release session.receiver emitted next) :
    Sound invariant good ⟨next, session.log, session.acks ++ acksOf emitted⟩ ∧
      next.activeEpoch = session.receiver.activeEpoch := by
  have kept := path.keeps
    (fun seen rx => rx.Cadence session.receiver.decoder session.acks
      (session.acks ++ acksOf seen) ∧ rx.activeEpoch = session.receiver.activeEpoch)
    (fun seen rx emitted next held move => by
      rw [acksOf_append, ← List.append_assoc]
      exact ⟨held.1.release move, move.activeEpoch.trans held.2⟩) []
    ⟨by simpa [acksOf] using sound.cadence, rfl⟩
  exact ⟨rule.sound sound.decoder sound.covered kept.1, kept.2⟩

theorem Sound.taken (sound : session.Sound invariant good) (rule : Rule allowed invariant good)
    {next : VideoReceiver} {epoch : UInt32} {isV2 : Bool} {chunks : Chunk → Prop}
    {emitted : List RxEvent}
    (path : Runs.Path (VideoReceiver.Intake epoch isV2 chunks) session.receiver emitted next) :
    Sound invariant good ⟨next, session.log, session.acks ++ acksOf emitted⟩ ∧
      next.activeEpoch = session.receiver.activeEpoch := by
  have kept := path.keeps
    (fun seen rx => rx.Cadence session.receiver.decoder session.acks
      (session.acks ++ acksOf seen) ∧ rx.activeEpoch = session.receiver.activeEpoch)
    (fun seen rx emitted next held move => by
      rw [acksOf_append, ← List.append_assoc]
      exact ⟨held.1.intake move, move.activeEpoch.trans held.2⟩) []
    ⟨by simpa [acksOf] using sound.cadence, rfl⟩
  exact ⟨rule.sound sound.decoder sound.covered kept.1, kept.2⟩

-- The log and the ACKs of the epoch that a message enters.
def enter (session : Session) (arrival : VideoReceiver.Arrival) : Session :=
  let renewed := session.receiver.activeEpoch.isSome &&
    some arrival.message.epoch ≠ session.receiver.activeEpoch
  { receiver := arrival.entered.1
    log := if renewed then [] else session.log
    acks := if renewed then [] else session.acks }

theorem Sound.enter (sound : session.Sound invariant good) (rule : Rule allowed invariant good)
    {arrival : VideoReceiver.Arrival} {nowMs : Nat}
    (accepted : session.receiver.acceptEpoch arrival.message.epoch arrival.message.isV2 nowMs =
      some arrival.entered) :
    (session.enter arrival).Sound invariant good ∧ acksOf arrival.entered.2 = [] ∧
      arrival.entered.1.activeEpoch = some arrival.message.epoch := by
  unfold Session.enter
  obtain ⟨fresh, entered⟩ | ⟨same, entered⟩ | ⟨⟨current, active, other⟩, entered⟩ :=
    VideoReceiver.acceptEpoch_cases accepted
  · rw [entered]
    refine ⟨?_, rfl, rfl⟩
    simp only [fresh, Option.isSome_none, Bool.false_and, Bool.false_eq_true, if_false]
    exact ⟨sound.decoder, sound.last, sound.forward, sound.covered⟩
  · rw [entered]
    refine ⟨?_, rfl, same⟩
    simp only [same, Option.isSome_some, ne_eq, not_true_eq_false, decide_false, Bool.and_false,
      Bool.false_eq_true, if_false]
    exact sound
  · have renewed : (session.receiver.activeEpoch.isSome &&
        some arrival.message.epoch ≠ session.receiver.activeEpoch) = true := by
      simp [active, other]
    rw [entered]
    simp only [renewed, if_true]
    exact ⟨⟨rule.fresh, rfl, List.isChain_nil, by simp⟩, rfl, rfl⟩

/-- The decoder has answered, and nothing is acknowledged yet. -/
theorem Sound.started {arrival : VideoReceiver.Arrival}
    (sound : (session.enter arrival).Sound invariant good) (rule : Rule allowed invariant good)
    (fits : allowed arrival.message.symbol) :
    Sound invariant good ⟨arrival.start.1, (session.enter arrival).log ++ arrival.events,
      (session.enter arrival).acks⟩ ∧
    acksOf arrival.start.2 = acksOf arrival.entered.2 ∧
    arrival.start.1.activeEpoch = arrival.entered.1.activeEpoch := by
  have pushed := rule.pushes _ _ arrival.message.symbol sound.decoder fits
  have covered (ack : UInt32) (member : ack ∈ (session.enter arrival).acks) :=
    rule.later _ arrival.events ack (sound.covered ack member)
  rw [VideoReceiver.Arrival.start, Runs.andThen, VideoReceiver.discontinueOnLoss, acksOf_append]
  split_ifs
  · exact ⟨⟨pushed, sound.last, sound.forward, covered⟩, List.append_nil _, rfl⟩
  · exact ⟨⟨pushed, sound.last, sound.forward, covered⟩, List.append_nil _, rfl⟩

/-- A call that leaves the epoch alone and whose moves are release moves. -/
theorem Sound.call_released (sound : session.Sound invariant good)
    (rule : Rule allowed invariant good) (call : RxCall)
    (silent : session.decoderEvents call = [])
    (path : Runs.Path VideoReceiver.Release session.receiver (session.receiver.call call).2
      (session.receiver.call call).1) : (session.call call).1.Sound invariant good := by
  obtain ⟨released, same⟩ := sound.released rule path
  have kept : session.renews call = false := by simp [renews, same]
  simpa [Session.call, kept, silent] using released

theorem Sound.call (sound : session.Sound invariant good) (rule : Rule allowed invariant good)
    (call : RxCall) (carries : call.Carries allowed) :
    (session.call call).1.Sound invariant good := by
  cases call with
  | onMessage buf nowMs =>
    obtain ⟨none, ignored⟩ | ⟨arrival, middle, taken, given, arrived, accepted, taking, giving,
      emitted⟩ := session.receiver.onMessage_cases buf nowMs
    · apply sound.call_released rule
      · simp [decoderEvents, none]
      · simp only [VideoReceiver.call, ignored]
        exact .done _
    · obtain ⟨parsed, valid, same⟩ := VideoReceiver.arrival_parsed arrived
      have fits : allowed arrival.message.symbol := same ▸ carries parsed valid
      obtain ⟨entered, silent, active⟩ := sound.enter rule accepted
      obtain ⟨started, quiet, same⟩ := entered.started rule fits
      obtain ⟨delivered, during⟩ := started.taken rule taking
      obtain ⟨released, after⟩ := delivered.released rule giving
      have epoch : (session.receiver.onMessage buf nowMs).1.activeEpoch =
          some arrival.message.epoch := after.trans (during.trans (same.trans active))
      have acks : acksOf (session.receiver.onMessage buf nowMs).2 =
          acksOf taken ++ acksOf given := by
        rw [emitted, acksOf_append, acksOf_append, quiet, silent, List.nil_append]
      simp only [Session.call, renews, decoderEvents, VideoReceiver.call, arrived, epoch, acks]
      simpa [Session.enter, List.append_assoc] using released
  | tickEvents nowMs =>
    exact sound.call_released rule _ rfl (session.receiver.tickEvents_path nowMs)
  | tick nowMs => exact sound.call_released rule _ rfl (.single (.ack _ nowMs))
  | pollNeedsIdr =>
    have kept : session.renews .pollNeedsIdr = false := by
      simp [renews, VideoReceiver.call, VideoReceiver.pollNeedsIdr]
    have polled : Sound invariant good
        ⟨session.receiver.pollNeedsIdr.1, session.log, session.acks⟩ :=
      ⟨sound.decoder, sound.last, sound.forward, sound.covered⟩
    simpa [Session.call, kept, decoderEvents, VideoReceiver.call, acksOf] using polled

theorem Rule.run (rule : Rule allowed invariant good) (nowMs : Nat) (calls : List RxCall)
    (carries : ∀ call ∈ calls, call.Carries allowed) :
    (Runs.run Session.call (.new nowMs) calls).1.Sound invariant good := by
  apply Runs.run_invariant Session.call (fun _ _ call => call.Carries allowed)
    (fun _ session => session.Sound invariant good)
    (fun _ session call sound carries => sound.call rule call carries) [] (.new nowMs) calls
  · exact ⟨rule.fresh, rfl, List.isChain_nil, by simp [Session.new]⟩
  · exact Runs.along_of_forall (fun call member _ _ => carries call member) _ _

end Calls

/-- Everything up to an ACK has been reported. -/
theorem accounted_rule : Rule (fun _ => True) (fun log decoder => decoder.Accounted log)
    (fun log ack => ∀ seq ≤ ack, Reported log seq) where
  fresh := ⟨by simp, by simp⟩
  pushes _ _ symbol accounted _ := FecDecoder.pushSymbol_accounted accounted symbol
  frontier _ _ ack accounted frontier := accounted.frontier ack frontier
  later _ more _ reported seq bound := (reported seq bound).left more

/-- Symbols of the lower half range yield ACKs of the lower half range. -/
theorem low_rule : Rule Symbol.Lower (fun _ decoder => decoder.Low)
    (fun _ ack => ack < 0x80000000) where
  fresh := ⟨by simp, by simp⟩
  pushes _ _ _ low lower := FecDecoder.pushSymbol_low low lower
  frontier _ _ ack low frontier := low.reached ack frontier
  later _ _ _ low := low

/-- Everything up to the decoder's frontier has been reported; within an epoch every ACK is forward
from the one before it, and from all before it while seqs stay in the lower half range; and an ACK
makes the sender retire only what the decoder of that epoch has reported. -/
theorem run_acks_safe :
    (∀ (maxSymbols : UInt16) (maxBytes : UInt32) (symbols : List Symbol) (highest : UInt32),
      (Runs.run FecDecoder.pushSymbol (.new maxSymbols maxBytes) symbols).1.highestFullyDecoded =
          some highest →
        ∀ seq ≤ highest,
          Reported (Runs.run FecDecoder.pushSymbol (.new maxSymbols maxBytes) symbols).2 seq) ∧
    ∀ (nowMs : Nat) (calls : List RxCall),
      Forward (Runs.run Session.call (.new nowMs) calls).1.acks ∧
      ((∀ call ∈ calls, call.Carries Symbol.Lower) →
        (Runs.run Session.call (.new nowMs) calls).1.acks.Pairwise
          (fun earlier later => seqAdvanced later earlier)) ∧
      ∀ ack ∈ (Runs.run Session.call (.new nowMs) calls).1.acks, ∀ encoder : FecEncoder,
        (∀ entry ∈ encoder.window, entry.seq < 0x80000000) →
          ∃ retired, encoder.window = retired ++ (encoder.acknowledge ack).window ∧
            ∀ entry ∈ retired,
              Reported (Runs.run Session.call (.new nowMs) calls).1.log entry.seq := by
  refine ⟨fun maxSymbols maxBytes symbols highest reached => ?_, fun nowMs calls => ?_⟩
  · exact (FecDecoder.run_accounted maxSymbols maxBytes symbols).frontier highest reached
  · have sound := accounted_rule.run nowMs calls
      (fun call _ => by cases call <;> simp [RxCall.Carries])
    refine ⟨sound.forward, fun lower => ?_, fun ack member encoder small => ?_⟩
    · exact sound.forward.pairwise (low_rule.run nowMs calls lower).covered
    · obtain ⟨retired, window, order⟩ := encoder.acknowledge_retires ack
      refine ⟨retired, window, fun entry gone => ?_⟩
      have held : entry ∈ encoder.window := window ▸ List.mem_append_left _ gone
      exact sound.covered ack member entry.seq (le_of_serialCmp (small entry held) (order entry gone))

end Session

end BetterParsec
