import BetterParsec.Browser.Channels
import BetterParsec.Library.Runs
import BetterParsec.Streamer.VideoUnits

set_option autoImplicit false
set_option linter.all false

/-!
# The video channel of the WebSocket

`WebSocketDataTransportChannel` of `web/stream/transport/web_socket.ts`, every channel
over the one `BIG_BUFFER`, and `DepacketizeVideoPipe` of
`web/stream/video/depackitize_pipe.ts` behind the channel of the host's video.
-/

namespace BetterParsec

open LittleEndian (take_overwrite length_overwrite)
open BrowserInput BrowserInput.WriteBuffer
open WebSocketTransportSender (FrameType sendVideoUnit sendVideoUnit_eq)

def BrowserInput.WriteBuffer.getU32 : Reader UInt32 := do
  pure (UInt32.ofNat (← getUint 4))

namespace Web

def bigCapacity : Nat := 1000000

def bigBuffer : WriteBuffer := newBuffer bigCapacity

namespace WebSocketDataTransportChannel

-- What is handed to the listeners, if anything, and the buffer afterwards.
def onMessage (id : UInt8) (data : List UInt8) (b : WriteBuffer) :
    Except String (Option (List UInt8)) × WriteBuffer :=
  match b.load data with
  | .error thrown => (.error thrown, b.reset)
  | .ok b =>
      match getU8 b with
      -- The position is moved before the limit is looked at.
      | .error thrown => (.error thrown, { b with position := b.position + 1 })
      | .ok (first, b) => (.ok (if first ≠ id then none else some b.getRemainingBuffer), b)

-- What is handed to the socket.
def send (id : UInt8) (message : List UInt8) (b : WriteBuffer) :
    Except String (List UInt8) × WriteBuffer :=
  match b.reset.putU8 id.toNat with
  | .error thrown => (.error thrown, b.reset)
  | .ok b =>
      match b.putU8Array message with
      | .error thrown => (.error thrown, b)
      | .ok b => (.ok b.flip.getRemainingBuffer, b.flip)

end WebSocketDataTransportChannel

-- `duration` may be negative, where the timestamp starts again at 0.
structure DataDecodeUnit where
  key : Bool
  data : List UInt8
  durationMicroseconds : Int
  timestampMicroseconds : UInt32
  deriving DecidableEq

structure DepacketizeVideoPipe where
  lastTimestampMicroseconds : UInt32
  buffer : WriteBuffer

namespace DepacketizeVideoPipe

def new : DepacketizeVideoPipe := ⟨0, newBuffer 5⟩

-- With the unit that is passed on.
def submitPacket (pipe : DepacketizeVideoPipe) (array : List UInt8) :
    Except String (DepacketizeVideoPipe × DataDecodeUnit) := do
  let buffer ← pipe.buffer.load (array.take 5)
  let (frameType, buffer) ← getU8 buffer
  let (timestamp, buffer) ← getU32 buffer
  pure (⟨timestamp, buffer⟩,
    { key := if frameType = 0 then false else true
      data := array.drop 5
      durationMicroseconds := (timestamp.toNat : Int) - pipe.lastTimestampMicroseconds.toNat
      timestampMicroseconds := timestamp })

def submitPackets (pipe : DepacketizeVideoPipe) :
    List (List UInt8) → Except String (List DataDecodeUnit)
  | [] => pure []
  | array :: rest => do
      let (next, unit) ← pipe.submitPacket array
      let later ← next.submitPackets rest
      pure (unit :: later)

end DepacketizeVideoPipe

namespace WebSocketTransport

open WebSocketDataTransportChannel

-- Whatever else uses the buffer: it may leave anything in it.
structure Use where
  apply : WriteBuffer → WriteBuffer
  capacity : ∀ b, (apply b).buffer.length = b.buffer.length

-- What the page does during a message: the use of the buffer by the listeners of a channel and
-- by all that runs before the next one, and the listeners that throw.
structure Around where
  use : UInt8 → Use
  throws : UInt8 → Nat → Bool

inductive Event where
  | unit (unit : WebSocketTransportSender.VideoDecodeUnit) (needsIdr : Bool) (around : Around)
  -- Any other frame.
  | frame (id : UInt8) (other : id ≠ TransportChannelId.hostVideo) (payload : List UInt8)
      (around : Around)
  | send (id : UInt8) (message : List UInt8)
  | use (use : Use)

-- The listeners of a channel are numbered.
inductive Output where
  | heard (id : UInt8) (listener : Nat) (payload : List UInt8)
  | sent (frame : List UInt8)
  | threw
  deriving DecidableEq

-- The loop over the listeners ends at one that throws.
def deliver (id : UInt8) (throws : Nat → Bool) (payload : List UInt8) : List Nat → List Output
  | [] => []
  | listener :: rest =>
      .heard id listener payload ::
        if throws listener then [.threw] else deliver id throws payload rest

def handle (listeners : UInt8 → Nat) (around : Around) (frame : List UInt8) (b : WriteBuffer)
    (id : UInt8) : WriteBuffer × List Output :=
  let (handed, b) := onMessage id frame b
  ((around.use id).apply b,
    match handed with
    | .error _ => [.threw]
    | .ok none => []
    | .ok (some payload) =>
        deliver id (around.throws id) payload (List.range (listeners id)))

-- Every channel hears every message.
def receive (listeners : UInt8 → Nat) (around : Around) (frame : List UInt8) (b : WriteBuffer) :
    WriteBuffer × List Output :=
  Runs.run (handle listeners around frame) b TransportChannelId.all

def step (listeners : UInt8 → Nat) (b : WriteBuffer) : Event → WriteBuffer × List Output
  | .unit unit needsIdr around =>
      match (sendVideoUnit unit true needsIdr).bind (·.frame) with
      | none => (b, [])
      | some frame => receive listeners around frame b
  | .frame id _ payload around => receive listeners around (id :: payload) b
  | .send id message =>
      match WebSocketDataTransportChannel.send id message b with
      | (.error _, b) => (b, [.threw])
      | (.ok frame, b) => (b, [.sent frame])
  | .use use => (use.apply b, [])

def run (listeners : UInt8 → Nat) (events : List Event) : List Output :=
  (Runs.run (step listeners) bigBuffer events).2

-- What one listener was given, in order.
def heard (id : UInt8) (listener : Nat) (outputs : List Output) : List (List UInt8) :=
  outputs.filterMap fun
    | .heard other number payload => if other = id ∧ number = listener then some payload else none
    | _ => none

-- The units that were sent, each with what the page did while it was heard.
def sendings (events : List Event) : List (WebSocketTransportSender.VideoDecodeUnit × Around) :=
  events.filterMap fun
    | .unit unit _ around => some (unit, around)
    | _ => none

-- The frame fits, and no listener before this one throws.
def Arrives (listener : Nat) (sending : WebSocketTransportSender.VideoDecodeUnit × Around) :
    Prop :=
  sending.1.data.length + 6 ≤ bigCapacity ∧
    ∀ earlier < listener, sending.2.throws TransportChannelId.hostVideo earlier = false

instance (listener : Nat) : DecidablePred (Arrives listener) :=
  fun _ => inferInstanceAs (Decidable (_ ∧ _))

end WebSocketTransport

section Buffer

theorem putU8Array_capacity {b b' : WriteBuffer} {data : List UInt8}
    (put : b.putU8Array data = .ok b') : b'.buffer.length = b.buffer.length := by
  by_cases long : b.position + data.length > b.buffer.length
  · simp [putU8Array, long] at put
  · simp only [putU8Array, if_neg long, Except.ok.injEq] at put
    rw [← put]
    exact length_overwrite b.buffer data b.position (by omega)

theorem putU8_capacity {b b' : WriteBuffer} {data : Nat} (put : b.putU8 data = .ok b') :
    b'.buffer.length = b.buffer.length := by
  by_cases long : b.position + 1 > b.buffer.length
  · simp [putU8, long] at put
  · simp only [putU8, if_neg long, Except.ok.injEq] at put
    rw [← put]
    exact length_overwrite b.buffer [UInt8.ofNat data] b.position (by simpa using long)

theorem putU8Array_written (b : WriteBuffer) (data : List UInt8)
    (fits : b.position + data.length ≤ b.buffer.length) :
    ∃ b', b.putU8Array data = .ok b' ∧ written b' = written b ++ data :=
  ⟨_, if_neg (Nat.not_lt.mpr fits), take_overwrite b.buffer data b.position (by omega)⟩

theorem load_capacity {b b' : WriteBuffer} {data : List UInt8} (loaded : b.load data = .ok b') :
    b'.buffer.length = b.buffer.length := by
  unfold load at loaded
  cases put : b.reset.putU8Array data with
  | error thrown => simp [put, bind, Except.bind] at loaded
  | ok full =>
    simp only [put, bind, Except.bind, pure, Except.pure, Except.ok.injEq] at loaded
    rw [← loaded]
    exact (putU8Array_capacity put : full.buffer.length = b.reset.buffer.length)

theorem getUint_capacity {b b' : WriteBuffer} {width n : Nat}
    (got : getUint width b = .ok (n, b')) : b'.buffer.length = b.buffer.length := by
  simp only [getUint, bytesUsed, bind, StateT.bind, Except.bind, pure, StateT.pure,
    Except.pure] at got
  split_ifs at got with inside read
  simp only [Except.ok.injEq, Prod.mk.injEq] at got
  rw [← got.2]

theorem getU8_capacity {b b' : WriteBuffer} {first : UInt8} (got : getU8 b = .ok (first, b')) :
    b'.buffer.length = b.buffer.length := by
  simp only [getU8, bind, StateT.bind, Except.bind] at got
  cases read : getUint 1 b with
  | error thrown => simp [read] at got
  | ok found =>
    simp only [read, pure, StateT.pure, Except.pure, Except.ok.injEq, Prod.mk.injEq] at got
    rw [← got.2]
    exact getUint_capacity read

theorem getU32_loaded {b : WriteBuffer} {data : List UInt8} (n : UInt32)
    (loaded : Loaded b (BigEndian.bytes 4 n.toNat ++ data)) :
    ∃ b', getU32 b = .ok (n, b') ∧ Loaded b' data ∧ b'.buffer.length = b.buffer.length := by
  obtain ⟨b', got, rest⟩ := getUint_loaded loaded
  rw [BigEndian.length_bytes, BigEndian.value_bytes] at got
  refine ⟨b', ?_, rest, getUint_capacity got⟩
  have bound : n.toNat < 256 ^ 4 := n.toNat_lt
  simp only [getU32, bind, StateT.bind, Except.bind, got, pure, StateT.pure, Except.pure,
    Nat.mod_eq_of_lt bound, UInt32.ofNat_toNat]

namespace WebSocketDataTransportChannel

theorem onMessage_capacity (id : UInt8) (data : List UInt8) (b : WriteBuffer) :
    (onMessage id data b).2.buffer.length = b.buffer.length := by
  unfold onMessage
  cases loaded : b.load data with
  | error thrown => rfl
  | ok full =>
    have capacity := load_capacity loaded
    dsimp only
    cases got : getU8 full with
    | error thrown => exact capacity
    | ok read =>
      obtain ⟨first, rest⟩ := read
      exact (getU8_capacity got).trans capacity

/-- Whatever was left in the buffer, a frame that fits is heard by its own channel. -/
theorem onMessage_handed (id first : UInt8) (payload : List UInt8) (b : WriteBuffer) :
    (onMessage id (first :: payload) b).1 =
      if payload.length + 1 > b.buffer.length then .error "failed to write over the capacity"
      else .ok (if first ≠ id then none else some payload) := by
  by_cases long : payload.length + 1 > b.buffer.length
  · rw [if_pos long, onMessage, load_refused b (first :: payload) long]
  · rw [if_neg long]
    obtain ⟨full, loaded, ready⟩ := load_loaded b (first :: payload) (Nat.not_lt.mp long)
    obtain ⟨rest, got, left⟩ := getU8_loaded ready
    simp only [onMessage, loaded, got, left.data]

/-- A page whose listeners leave the buffer alone hears what is handed to them. -/
theorem page_onMessage {State : Type} (page : Page) (channels : Page.Channels) (id : UInt8)
    (frame : List UInt8) :
    (page.onMessage channels id frame : Except String (List (Received State))) =
      (onMessage id frame page.big).1.map fun handed =>
        handed.elim [] fun payload => page.deliver payload (channels id) := by
  simp only [Page.onMessage, onMessage, bind, Except.bind]
  cases loaded : page.big.load frame with
  | error thrown => rfl
  | ok full =>
    dsimp only
    cases got : getU8 full with
    | error thrown => rfl
    | ok read =>
      by_cases other : read.1 ≠ id
      · simp [other, Except.map, pure, Except.pure]
      · simp [other, Except.map, pure, Except.pure]

theorem send_capacity (id : UInt8) (message : List UInt8) (b : WriteBuffer) :
    (send id message b).2.buffer.length = b.buffer.length := by
  unfold send
  cases putId : b.reset.putU8 id.toNat with
  | error thrown => rfl
  | ok behind =>
    have capacity : behind.buffer.length = b.reset.buffer.length := putU8_capacity putId
    dsimp only
    cases put : behind.putU8Array message with
    | error thrown => exact capacity
    | ok full => exact (putU8Array_capacity put).trans capacity

theorem send_sent (id : UInt8) (message : List UInt8) (b : WriteBuffer) :
    (send id message b).1 =
      if message.length + 1 > b.buffer.length then .error "failed to write over the capacity"
      else .ok (id :: message) := by
  by_cases none : b.buffer.length = 0
  · have refused : b.reset.putU8 id.toNat = .error "failed to write over the capacity" :=
      if_pos (show 0 + 1 > b.buffer.length by omega)
    rw [if_pos (by omega), send, refused]
  obtain ⟨behind, putId, front, position, capacity⟩ :=
    putU8_written b.reset id.toNat (show 0 < b.buffer.length by omega)
  have start : behind.position = 1 := position
  have room : behind.buffer.length = b.buffer.length := capacity
  by_cases long : message.length + 1 > b.buffer.length
  · have refused : behind.putU8Array message = .error "failed to write over the capacity" :=
      if_pos (by omega)
    rw [if_pos long]
    simp only [send, putId, refused]
  · obtain ⟨full, put, bytes⟩ := putU8Array_written behind message (by omega)
    have frame : full.flip.getRemainingBuffer = id :: message := by
      have all : full.flip.getRemainingBuffer = written full := by
        simp [WriteBuffer.flip, getRemainingBuffer, written]
      rw [all, bytes, front, UInt8.ofNat_toNat]
      rfl
    rw [if_neg long]
    simp only [send, putId, put, frame]

end WebSocketDataTransportChannel

end Buffer

section Pipe

-- The fields of a unit that a decoder is given, without the duration.
def DataDecodeUnit.fields (unit : DataDecodeUnit) : Bool × UInt32 × List UInt8 :=
  (unit.key, unit.timestampMicroseconds, unit.data)

def hostFields (unit : WebSocketTransportSender.VideoDecodeUnit) : Bool × UInt32 × List UInt8 :=
  (unit.frameType = .idr, UInt32.ofNat (unit.timestamp / 1000), unit.buffers.flatten)

namespace DepacketizeVideoPipe

theorem submitPacket_payload (pipe : DepacketizeVideoPipe)
    (unit : WebSocketTransportSender.VideoDecodeUnit)
    (capacity : pipe.buffer.buffer.length = 5) :
    ∃ next passed, pipe.submitPacket unit.payload = .ok (next, passed) ∧
      next.buffer.buffer.length = 5 ∧ passed.fields = hostFields unit := by
  have header : unit.payload.take 5 =
      unit.frameType.byte :: BigEndian.bytes 4 unit.timestampMicros.toNat := by
    simp [WebSocketTransportSender.VideoDecodeUnit.payload]
  have data : unit.payload.drop 5 = unit.data := by
    simp [WebSocketTransportSender.VideoDecodeUnit.payload]
  obtain ⟨ready, loaded, content⟩ := load_loaded pipe.buffer (unit.payload.take 5)
    (by rw [header, capacity]; simp)
  rw [header, ← List.append_nil (BigEndian.bytes 4 _)] at content
  obtain ⟨behind, gotType, time⟩ := getU8_loaded content
  obtain ⟨full, gotTime, rest, room⟩ := getU32_loaded unit.timestampMicros time
  refine ⟨⟨unit.timestampMicros, full⟩,
    { key := if unit.frameType.byte = 0 then false else true
      data := unit.data
      durationMicroseconds :=
        (unit.timestampMicros.toNat : Int) - pipe.lastTimestampMicroseconds.toNat
      timestampMicroseconds := unit.timestampMicros }, ?_, ?_, ?_⟩
  · simp only [submitPacket, loaded, gotType, gotTime, data, bind, Except.bind, pure, Except.pure]
  · exact room.trans ((getU8_capacity gotType).trans ((load_capacity loaded).trans capacity))
  · cases kind : unit.frameType with
    | idr => simp [DataDecodeUnit.fields, hostFields, kind, FrameType.byte,
        WebSocketTransportSender.VideoDecodeUnit.timestampMicros,
        WebSocketTransportSender.VideoDecodeUnit.data]
    | pFrame => simp [DataDecodeUnit.fields, hostFields, kind, FrameType.byte,
        WebSocketTransportSender.VideoDecodeUnit.timestampMicros,
        WebSocketTransportSender.VideoDecodeUnit.data]

theorem submitPackets_payloads (pipe : DepacketizeVideoPipe)
    (units : List WebSocketTransportSender.VideoDecodeUnit)
    (capacity : pipe.buffer.buffer.length = 5) :
    ∃ passed,
      pipe.submitPackets (units.map WebSocketTransportSender.VideoDecodeUnit.payload) =
        .ok passed ∧
      passed.map DataDecodeUnit.fields = units.map hostFields := by
  induction units generalizing pipe with
  | nil => exact ⟨[], rfl, rfl⟩
  | cons unit rest ih =>
    obtain ⟨next, first, submitted, room, fields⟩ := pipe.submitPacket_payload unit capacity
    obtain ⟨later, all, others⟩ := ih next room
    refine ⟨first :: later, ?_, ?_⟩
    · simp only [List.map_cons, submitPackets, submitted, all, bind, Except.bind, pure, Except.pure]
    · rw [List.map_cons, List.map_cons, fields, others]

end DepacketizeVideoPipe

end Pipe

namespace WebSocketTransport

open WebSocketDataTransportChannel

-- What a channel makes of a frame, whatever is in the buffer.
def handled (listeners : UInt8 → Nat) (around : Around) (first : UInt8) (payload : List UInt8)
    (id : UInt8) : List Output :=
  if payload.length + 1 > bigCapacity then [.threw]
  else if first ≠ id then []
  else deliver id (around.throws id) payload (List.range (listeners id))

def emitted (listeners : UInt8 → Nat) : Event → List Output
  | .unit unit _ around =>
      TransportChannelId.all.flatMap
        (handled listeners around TransportChannelId.hostVideo unit.payload)
  | .frame id _ payload around =>
      TransportChannelId.all.flatMap (handled listeners around id payload)
  | .send id message =>
      if message.length + 1 > bigCapacity then [.threw] else [.sent (id :: message)]
  | .use _ => []

def Big (b : WriteBuffer) : Prop := b.buffer.length = bigCapacity

section Spec

variable (listeners : UInt8 → Nat)

theorem handle_big (around : Around) (frame : List UInt8) (b : WriteBuffer) (id : UInt8)
    (big : Big b) : Big (handle listeners around frame b id).1 :=
  ((around.use id).capacity _).trans ((onMessage_capacity id frame b).trans big)

theorem handle_output (around : Around) (first : UInt8) (payload : List UInt8) (b : WriteBuffer)
    (id : UInt8) (big : Big b) :
    (handle listeners around (first :: payload) b id).2 =
      handled listeners around first payload id := by
  have handed := onMessage_handed id first payload b
  rw [show b.buffer.length = bigCapacity from big] at handed
  simp only [handle, handed, handled]
  split_ifs with long other
  · rfl
  · rfl
  · rfl

theorem receive_spec (around : Around) (first : UInt8) (payload : List UInt8) {b : WriteBuffer}
    (big : Big b) :
    Big (receive listeners around (first :: payload) b).1 ∧
      (receive listeners around (first :: payload) b).2 =
        TransportChannelId.all.flatMap (handled listeners around first payload) :=
  Runs.run_eq_flatMap _ Big _ (handle_big listeners around (first :: payload))
    (handle_output listeners around first payload) TransportChannelId.all big

theorem step_spec (b : WriteBuffer) (event : Event) (big : Big b) :
    Big (step listeners b event).1 ∧ (step listeners b event).2 = emitted listeners event := by
  cases event with
  | unit unit needsIdr around =>
    obtain ⟨sending, sent, frame⟩ := sendVideoUnit_eq unit true needsIdr
    rw [if_pos rfl] at frame
    simp only [step, sent, Option.bind_some, frame]
    exact receive_spec listeners around TransportChannelId.hostVideo unit.payload big
  | frame id other payload around => exact receive_spec listeners around id payload big
  | send id message =>
    have capacity := (send_capacity id message b).trans big
    have sent := send_sent id message b
    rw [show b.buffer.length = bigCapacity from big] at sent
    cases result : WebSocketDataTransportChannel.send id message b with
    | mk outcome left =>
      rw [result] at capacity sent
      cases outcome with
      | error thrown =>
        simp only [step, emitted, result]
        refine ⟨capacity, ?_⟩
        split_ifs at sent ⊢ with long
        rfl
      | ok frame =>
        simp only [step, emitted, result]
        refine ⟨capacity, ?_⟩
        split_ifs at sent ⊢ with long
        rw [Except.ok.inj sent]
  | use use => exact ⟨(use.capacity b).trans big, rfl⟩

theorem bigBuffer_big : Big bigBuffer := List.length_replicate

/-- What was left in the buffer never shows. -/
theorem run_eq (events : List Event) :
    run listeners events = events.flatMap (emitted listeners) :=
  (Runs.run_eq_flatMap _ Big _ (fun b event big => (step_spec listeners b event big).1)
    (fun b event big => (step_spec listeners b event big).2) events bigBuffer_big).2

end Spec

section Heard

theorem mem_heard {id : UInt8} {listener : Nat} {payload : List UInt8} {outputs : List Output} :
    payload ∈ heard id listener outputs ↔ .heard id listener payload ∈ outputs := by
  rw [heard, List.mem_filterMap]
  constructor
  · intro ⟨output, member, found⟩
    cases output with
    | heard other number given =>
      simp only [Option.ite_none_right_eq_some, Option.some.injEq] at found
      obtain ⟨⟨rfl, rfl⟩, rfl⟩ := found
      exact member
    | sent frame => simp at found
    | threw => simp at found
  · exact fun member => ⟨_, member, by simp⟩

theorem heard_flatMap {I : Type} (id : UInt8) (listener : Nat) (inputs : List I)
    (output : I → List Output) :
    heard id listener (inputs.flatMap output) =
      inputs.flatMap fun input => heard id listener (output input) :=
  List.filterMap_flatMap ..

theorem deliver_heard {id other : UInt8} {throws : Nat → Bool} {payload given : List UInt8}
    {listener : Nat} {numbers : List Nat}
    (member : .heard other listener given ∈ deliver id throws payload numbers) :
    other = id ∧ given = payload := by
  induction numbers with
  | nil => simp [deliver] at member
  | cons number rest ih =>
    rw [deliver, List.mem_cons] at member
    rcases member with same | later
    · cases same
      exact ⟨rfl, rfl⟩
    · split_ifs at later
      · simp at later
      · exact ih later

theorem heard_deliver (id : UInt8) (throws : Nat → Bool) (payload : List UInt8) (listener : Nat)
    (start count : Nat) :
    heard id listener (deliver id throws payload (List.range' start count)) =
      if (start ≤ listener ∧ listener < start + count) ∧
        ∀ earlier < listener, start ≤ earlier → throws earlier = false
      then [payload] else [] := by
  induction count generalizing start with
  | zero =>
    rw [if_neg (by omega)]
    rfl
  | succ count ih =>
    have first : heard id listener [.heard id start payload] =
        if start = listener then [payload] else [] := by
      by_cases here : start = listener
      · simp [heard, here]
      · simp [heard, here]
    rw [List.range'_succ, deliver, ← List.singleton_append, heard, List.filterMap_append, ← heard,
      ← heard, first]
    cases thrown : throws start with
    | true =>
      rw [if_pos rfl]
      by_cases here : start = listener
      · subst here
        rw [if_pos rfl, if_pos ⟨by omega, fun earlier before behind => by omega⟩]
        rfl
      · rw [if_neg here, if_neg]
        · rfl
        · intro ⟨inside, quiet⟩
          have silent := quiet start (by omega) (Nat.le_refl start)
          rw [thrown] at silent
          simp at silent
    | false =>
      rw [if_neg Bool.false_ne_true, ih]
      by_cases here : start = listener
      · subst here
        rw [if_pos rfl, if_neg (by omega),
          if_pos ⟨by omega, fun earlier before behind => by omega⟩]
        rfl
      · rw [if_neg here, List.nil_append]
        refine if_congr (and_congr (by omega) (forall₂_congr fun earlier before => ?_)) rfl rfl
        constructor
        · intro quiet behind
          by_cases same : start = earlier
          · rw [← same, thrown]
          · exact quiet (by omega)
        · exact fun quiet behind => quiet (by omega)

variable (listeners : UInt8 → Nat)

theorem handled_heard {around : Around} {first : UInt8} {payload given : List UInt8}
    {id other : UInt8} {listener : Nat}
    (member : .heard other listener given ∈ handled listeners around first payload id) :
    other = first ∧ given = payload := by
  unfold handled at member
  split_ifs at member with long differs
  · simp at member
  · simp at member
  · rw [not_not.mp differs]
    exact deliver_heard member

theorem frame_heard (around : Around) (payload : List UInt8) {listener : Nat}
    (listening : listener < listeners TransportChannelId.hostVideo) :
    heard TransportChannelId.hostVideo listener (TransportChannelId.all.flatMap
        (handled listeners around TransportChannelId.hostVideo payload)) =
      if payload.length + 1 ≤ bigCapacity ∧ ∀ earlier < listener,
          around.throws TransportChannelId.hostVideo earlier = false
      then [payload] else [] := by
  have others : ∀ ids : List UInt8, TransportChannelId.hostVideo ∉ ids →
      (ids.flatMap fun id => heard TransportChannelId.hostVideo listener
        (handled listeners around TransportChannelId.hostVideo payload id)) = [] := by
    intro ids without
    rw [List.flatMap_eq_nil_iff]
    intro id member
    have differs : TransportChannelId.hostVideo ≠ id := fun same => without (same ▸ member)
    unfold handled
    split_ifs with long
    · rfl
    · rfl
  have own : heard TransportChannelId.hostVideo listener
      (handled listeners around TransportChannelId.hostVideo payload TransportChannelId.hostVideo) =
      if payload.length + 1 ≤ bigCapacity ∧ ∀ earlier < listener,
          around.throws TransportChannelId.hostVideo earlier = false
      then [payload] else [] := by
    unfold handled
    by_cases long : payload.length + 1 > bigCapacity
    · rw [if_pos long, if_neg (by omega)]
      rfl
    · rw [if_neg long, if_neg (not_not.mpr rfl), List.range_eq_range', heard_deliver]
      exact if_congr (by simp [listening, Nat.not_lt.mp long]) rfl rfl
  obtain ⟨before, after, split, first, last⟩ : ∃ before after,
      TransportChannelId.all = before ++ TransportChannelId.hostVideo :: after ∧
        TransportChannelId.hostVideo ∉ before ∧ TransportChannelId.hostVideo ∉ after :=
    ⟨[0, 1], _, rfl, by decide, by decide⟩
  rw [heard_flatMap, split, List.flatMap_append, List.flatMap_cons, others before first,
    others after last, own, List.nil_append, List.append_nil]

/-- A listener of the host's video hears the units that arrive, in order. -/
theorem hostVideo_heard (events : List Event) {listener : Nat}
    (listening : listener < listeners TransportChannelId.hostVideo) :
    heard TransportChannelId.hostVideo listener (run listeners events) =
      ((sendings events).filter fun sending => Arrives listener sending).map
        fun sending => sending.1.payload := by
  rw [run_eq, heard_flatMap]
  induction events with
  | nil => rfl
  | cons event rest ih =>
    rw [List.flatMap_cons, ih]
    cases event with
    | unit unit needsIdr around =>
      have own : heard TransportChannelId.hostVideo listener
          (emitted listeners (.unit unit needsIdr around)) =
            if Arrives listener (unit, around) then [unit.payload] else [] := by
        rw [emitted, frame_heard listeners around unit.payload listening]
        exact if_congr
          (by rw [WebSocketTransportSender.VideoDecodeUnit.length_payload]; exact Iff.rfl) rfl rfl
      have sent : sendings (.unit unit needsIdr around :: rest) =
        (unit, around) :: sendings rest := rfl
      rw [own, sent, List.filter_cons]
      by_cases arrives : Arrives listener (unit, around)
      · rw [if_pos arrives, if_pos (by simpa using arrives)]
        rfl
      · rw [if_neg arrives, if_neg (by simpa using arrives)]
        rfl
    | frame id other payload around =>
      have silent : heard TransportChannelId.hostVideo listener
          (emitted listeners (.frame id other payload around)) = [] := by
        rw [List.eq_nil_iff_forall_not_mem]
        intro given member
        rw [mem_heard, emitted, List.mem_flatMap] at member
        obtain ⟨channel, -, found⟩ := member
        exact other (handled_heard listeners found).1.symm
      rw [silent]
      rfl
    | send id message =>
      have silent : heard TransportChannelId.hostVideo listener
          (emitted listeners (.send id message)) = [] := by
        simp only [emitted]
        split_ifs
        · rfl
        · rfl
      rw [silent]
      rfl
    | use use => rfl

theorem other_heard (events : List Event) {id : UInt8} {listener : Nat} {payload : List UInt8}
    (differs : id ≠ TransportChannelId.hostVideo)
    (member : payload ∈ heard id listener (run listeners events)) :
    ∃ around, .frame id differs payload around ∈ events := by
  rw [mem_heard, run_eq, List.mem_flatMap] at member
  obtain ⟨event, among, found⟩ := member
  cases event with
  | unit unit needsIdr around =>
    rw [emitted, List.mem_flatMap] at found
    obtain ⟨channel, -, found⟩ := found
    exact absurd (handled_heard listeners found).1 differs
  | frame first other given around =>
    rw [emitted, List.mem_flatMap] at found
    obtain ⟨channel, -, found⟩ := found
    obtain ⟨rfl, rfl⟩ := handled_heard listeners found
    exact ⟨around, among⟩
  | send first message =>
    simp only [emitted] at found
    split_ifs at found
    · simp at found
    · simp at found
  | use use => simp [emitted] at found

end Heard

def sentPayloads (events : List Event) : List (List UInt8) :=
  (sendings events).map fun sending => sending.1.payload

/-- A listener of the host's video hears every unit exactly if every frame fits into the buffer and
no listener before it throws; the others hear none, and the pipe passes on what was sent. -/
theorem hostVideo_delivered_iff (listeners : UInt8 → Nat) (events : List Event) :
    (∀ listener < listeners TransportChannelId.hostVideo,
      (heard TransportChannelId.hostVideo listener (run listeners events) = sentPayloads events ↔
        ∀ sending ∈ sendings events, Arrives listener sending)) ∧
    (∀ id (differs : id ≠ TransportChannelId.hostVideo) listener payload,
      payload ∈ heard id listener (run listeners events) →
        ∃ around, .frame id differs payload around ∈ events) ∧
    ∀ units : List WebSocketTransportSender.VideoDecodeUnit, ∃ passed,
      DepacketizeVideoPipe.new.submitPackets
          (units.map WebSocketTransportSender.VideoDecodeUnit.payload) = .ok passed ∧
        passed.map DataDecodeUnit.fields = units.map hostFields := by
  refine ⟨fun listener listening => ?_, fun id differs listener payload member => ?_,
    fun units => DepacketizeVideoPipe.submitPackets_payloads .new units rfl⟩
  · rw [hostVideo_heard listeners events listening, sentPayloads]
    constructor
    · intro same
      have lengths := congrArg List.length same
      rw [List.length_map, List.length_map, List.length_filter_eq_length_iff] at lengths
      exact fun sending member => by simpa using lengths sending member
    · intro each
      rw [List.filter_eq_self.mpr fun sending member => by simpa using each sending member]
  · exact other_heard listeners events differs member

def oneListener : UInt8 → Nat := fun _ => 1

def quietly : Around where
  use _ := ⟨id, fun _ => rfl⟩
  throws _ _ := false

theorem hostVideo_delivered_iff_small :
    heard TransportChannelId.hostVideo 0 (run oneListener
        [.send TransportChannelId.keyboard [1, 2],
          .unit ⟨.idr, 4294967296000, [[0, 0, 1], [0x65]]⟩ false quietly]) =
      [[1, 0, 0, 0, 0, 0, 0, 1, 0x65]] := by
  have delivered := (hostVideo_delivered_iff oneListener
    [.send TransportChannelId.keyboard [1, 2],
      .unit ⟨.idr, 4294967296000, [[0, 0, 1], [0x65]]⟩ false quietly]).1 0 Nat.one_pos
  refine (delivered.mpr ?_).trans (by decide)
  intro sending member
  rw [show sendings _ = [(⟨.idr, 4294967296000, [[0, 0, 1], [0x65]]⟩, quietly)] from rfl,
    List.mem_singleton] at member
  rw [member]
  exact ⟨by decide, fun earlier before => absurd before (Nat.not_lt_zero earlier)⟩

/-- A key frame of 999995 bytes is heard by no listener. -/
theorem hostVideo_not_delivered :
    heard TransportChannelId.hostVideo 0 (run oneListener
        [.unit ⟨.idr, 0, [List.replicate 999995 0]⟩ false quietly]) = [] ∧
      sentPayloads [.unit ⟨.idr, 0, [List.replicate 999995 0]⟩ false quietly] ≠ [] := by
  have lost (bytes : List UInt8) (large : bytes.length = 999995) :
      heard TransportChannelId.hostVideo 0
        (run oneListener [.unit ⟨.idr, 0, [bytes]⟩ false quietly]) = [] := by
    have missing : ¬Arrives 0 (⟨.idr, 0, [bytes]⟩, quietly) := by
      intro arrives
      have fits : bytes.length + 6 ≤ bigCapacity := by
        simpa [WebSocketTransportSender.VideoDecodeUnit.data] using arrives.1
      have capacity : bigCapacity = 1000000 := rfl
      omega
    rw [hostVideo_heard oneListener _ Nat.one_pos,
      show sendings _ = [(⟨.idr, 0, [bytes]⟩, quietly)] from rfl]
    simp [List.filter, missing]
  exact ⟨lost _ List.length_replicate, List.cons_ne_nil _ _⟩

end WebSocketTransport

end Web

end BetterParsec
