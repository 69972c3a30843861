import BetterParsec.Library.LittleEndian
import BetterParsec.Library.Runs

set_option autoImplicit false
set_option linter.all false

/-!
# The connection of the QU relay

`read_frame` and `run_connection` of `streamer/src/transport/webrtc/qu_relay.rs`.
The loop selects between the next frame of the socket and the next message for
it. The branch that loses is dropped, and a dropped `read_frame` takes the bytes
it has read with it.
-/

namespace BetterParsec

namespace QuRelay

open LittleEndian (bytes value valueAt)

def maxMsgLen : Nat := 4 * 1024 * 1024

-- The `read_frame` future: the bytes each of its two `read_exact` calls holds.
inductive ReadFrame where
  | length (got : List UInt8)
  | body (len : Nat) (got : List UInt8)
  deriving DecidableEq

inductive ReadOutcome where
  | pending (future : ReadFrame)
  | frame (msg : List UInt8)
  | badLength
  deriving DecidableEq

namespace ReadFrame

def fresh : ReadFrame := .length []

-- The bytes that are lost when the future is dropped.
def held : ReadFrame → List UInt8
  | .length got => got
  | .body len got => bytes 4 len ++ got

def take : ReadFrame → UInt8 → ReadOutcome
  | .length got, byte =>
      let lenBuf := got ++ [byte]
      if lenBuf.length < 4 then .pending (.length lenBuf)
      else if value lenBuf = 0 ∨ value lenBuf > maxMsgLen then .badLength
      else .pending (.body (value lenBuf) [])
  | .body len got, byte =>
      let buf := got ++ [byte]
      if buf.length < len then .pending (.body len buf) else .frame buf

end ReadFrame

inductive ConnectionEnd where
  | badLength
  | eof
  | writeError
  | relayGone
  | superseded
  deriving DecidableEq

structure QuConnection where
  -- What the socket has received and the task has not read.
  unread : List UInt8
  future : ReadFrame
  ended : Option ConnectionEnd
  deriving DecidableEq

inductive ConnectionStep where
  | arrive (fragment : List UInt8)
  -- The `read_frame` branch takes a byte that has arrived.
  | read
  | hostCloses
  -- The `write_rx` branch completes.
  | client (msg : List UInt8) (written : Bool)
  | relayExits
  -- The generation guard at the top of the loop finds another generation.
  | supersede
  deriving DecidableEq

inductive ConnectionEvent where
  | handled (msg : List UInt8)
  | wrote (data : List UInt8)
  deriving DecidableEq

namespace QuConnection

def new : QuConnection := ⟨[], .fresh, none⟩

def finish (conn : QuConnection) (reason : ConnectionEnd) : QuConnection × List ConnectionEvent :=
  ({ conn with ended := some reason }, [])

def read (conn : QuConnection) : QuConnection × List ConnectionEvent :=
  match conn.unread with
  | [] => (conn, [])
  | byte :: rest =>
      match conn.future.take byte with
      | .pending future => ({ conn with unread := rest, future := future }, [])
      | .frame msg => ({ conn with unread := rest, future := .fresh }, [.handled msg])
      | .badLength => { conn with unread := rest }.finish .badLength

-- A task that has returned does nothing any more.
def live (conn : QuConnection) (next : QuConnection × List ConnectionEvent) :
    QuConnection × List ConnectionEvent :=
  if conn.ended.isSome then (conn, []) else next

def writeFrame (conn : QuConnection) (msg : List UInt8) (written : Bool) :
    QuConnection × List ConnectionEvent :=
  if written then (conn, [.wrote (bytes 4 msg.length ++ msg)]) else conn.finish .writeError

def step (conn : QuConnection) : ConnectionStep → QuConnection × List ConnectionEvent
  | .arrive fragment => ({ conn with unread := conn.unread ++ fragment }, [])
  | .read => conn.live conn.read
  | .hostCloses => conn.live (if conn.unread = [] then conn.finish .eof else (conn, []))
  | .client msg written => conn.live ({ conn with future := .fresh }.writeFrame msg written)
  | .relayExits => conn.live (conn.finish .relayGone)
  | .supersede => conn.live (if conn.future = .fresh then conn.finish .superseded else (conn, []))

end QuConnection

section Framing

inductive StreamEnd where
  | more
  | badLength
  deriving DecidableEq

-- The frames of a byte stream, and how it goes on. Each frame takes a byte of fuel and more.
def framesFrom : Nat → List UInt8 → List (List UInt8) × StreamEnd
  | 0, _ => ([], .more)
  | fuel + 1, stream =>
      let len := valueAt stream 0 4
      if stream.length < 4 then ([], .more)
      else if len = 0 ∨ len > maxMsgLen then ([], .badLength)
      else if stream.length < 4 + len then ([], .more)
      else
        let rest := framesFrom fuel (stream.drop (4 + len))
        ((stream.drop 4).take len :: rest.1, rest.2)

def frames (stream : List UInt8) : List (List UInt8) × StreamEnd :=
  framesFrom stream.length stream

def encodeFrame (msg : List UInt8) : List UInt8 := bytes 4 msg.length ++ msg

def Sized (msg : List UInt8) : Prop := 1 ≤ msg.length ∧ msg.length ≤ maxMsgLen

theorem framesFrom_encode {msg : List UInt8} (sized : Sized msg) (fuel : Nat)
    (rest : List UInt8) :
    framesFrom (fuel + 1) (encodeFrame msg ++ rest) =
      (msg :: (framesFrom fuel rest).1, (framesFrom fuel rest).2) := by
  have bound : msg.length < 256 ^ 4 := by
    have most := sized.2
    unfold maxMsgLen at most
    omega
  have len : valueAt (encodeFrame msg ++ rest) 0 4 = msg.length := by
    rw [encodeFrame, List.append_assoc]
    exact LittleEndian.valueAt_bytes 4 msg.length _ bound
  have head : (encodeFrame msg).length = 4 + msg.length := by simp [encodeFrame]
  have body : ((encodeFrame msg ++ rest).drop 4).take msg.length = msg := by
    rw [encodeFrame, List.append_assoc, List.drop_left' (LittleEndian.length_bytes 4 _),
      List.take_left]
  have tail : (encodeFrame msg ++ rest).drop (4 + msg.length) = rest := List.drop_left' head
  have small := sized.1
  have most := sized.2
  rw [framesFrom, len, body, tail, List.length_append, head, if_neg (by omega), if_neg (by omega),
    if_neg (by omega)]

theorem framesFrom_encodes {msgs : List (List UInt8)} (sized : ∀ msg ∈ msgs, Sized msg)
    (fuel : Nat) (rest : List UInt8) :
    framesFrom (msgs.length + fuel) (msgs.flatMap encodeFrame ++ rest) =
      (msgs ++ (framesFrom fuel rest).1, (framesFrom fuel rest).2) := by
  induction msgs with
  | nil => simp
  | cons msg msgs ih =>
    have later := ih fun other member => sized other (List.mem_cons_of_mem _ member)
    rw [List.length_cons, List.flatMap_cons, List.append_assoc,
      show msgs.length + 1 + fuel = msgs.length + fuel + 1 by omega,
      framesFrom_encode (sized msg List.mem_cons_self), later]
    rfl

theorem length_le_flatMap (msgs : List (List UInt8)) :
    msgs.length ≤ (msgs.flatMap encodeFrame).length := by
  induction msgs with
  | nil => exact Nat.zero_le _
  | cons msg msgs ih =>
    rw [List.flatMap_cons, List.length_append, List.length_cons, encodeFrame, List.length_append,
      LittleEndian.length_bytes]
    omega

/-- The frames at the front of a stream, and those of the rest with the fuel that is left. -/
theorem frames_encodes {msgs : List (List UInt8)} (sized : ∀ msg ∈ msgs, Sized msg)
    (rest : List UInt8) :
    ∃ fuel, rest.length ≤ fuel ∧ frames (msgs.flatMap encodeFrame ++ rest) =
      (msgs ++ (framesFrom fuel rest).1, (framesFrom fuel rest).2) := by
  obtain ⟨more, enough⟩ := Nat.exists_eq_add_of_le (length_le_flatMap msgs)
  refine ⟨more + rest.length, by omega, ?_⟩
  rw [frames, List.length_append, enough, Nat.add_assoc, framesFrom_encodes sized]

-- What a future that still waits can hold.
def Waiting : ReadFrame → Prop
  | .length got => got.length < 4
  | .body len got => 1 ≤ len ∧ len ≤ maxMsgLen ∧ got.length < len

theorem framesFrom_waiting {future : ReadFrame} (waiting : Waiting future) (fuel : Nat) :
    framesFrom fuel future.held = ([], .more) := by
  cases fuel with
  | zero => rfl
  | succ fuel =>
    cases future with
    | length got =>
      have short : got.length < 4 := waiting
      rw [framesFrom, ReadFrame.held, if_pos short]
    | body len got =>
      obtain ⟨positive, most, short⟩ := waiting
      have size : valueAt (bytes 4 len ++ got) 0 4 = len := by
        apply LittleEndian.valueAt_bytes
        unfold maxMsgLen at most
        omega
      rw [framesFrom, ReadFrame.held, size, List.length_append, LittleEndian.length_bytes,
        if_neg (by omega), if_neg (by omega), if_pos (by omega)]

theorem framesFrom_bad {lenBuf : List UInt8} (whole : lenBuf.length = 4)
    (bad : value lenBuf = 0 ∨ value lenBuf > maxMsgLen) (rest : List UInt8) (fuel : Nat) :
    framesFrom (fuel + 1) (lenBuf ++ rest) = ([], .badLength) := by
  have size : valueAt (lenBuf ++ rest) 0 4 = value lenBuf := by
    rw [valueAt, LittleEndian.slice, List.drop_zero, List.take_left' whole]
  rw [framesFrom, size, List.length_append, if_neg (by omega), if_pos bad]

/-- What the future does with the next byte, by what it holds then. -/
theorem take_spec {future : ReadFrame} (waiting : Waiting future) (byte : UInt8) :
    match future.take byte with
    | .pending next => Waiting next ∧ next.held = future.held ++ [byte]
    | .frame msg => Sized msg ∧ encodeFrame msg = future.held ++ [byte]
    | .badLength => (future.held ++ [byte]).length = 4 ∧
        (value (future.held ++ [byte]) = 0 ∨ value (future.held ++ [byte]) > maxMsgLen) := by
  cases future with
  | length got =>
    have short : got.length < 4 := waiting
    simp only [ReadFrame.take, ReadFrame.held]
    split_ifs with more bad
    · exact ⟨more, rfl⟩
    · refine ⟨?_, bad⟩
      simp at more ⊢
      omega
    · have whole : (got ++ [byte]).length = 4 := by
        simp at more ⊢
        omega
      refine ⟨⟨by omega, by omega, by simp; omega⟩, ?_⟩
      change bytes 4 (value (got ++ [byte])) ++ [] = got ++ [byte]
      rw [List.append_nil]
      conv_rhs => rw [← LittleEndian.bytes_value (got ++ [byte]), whole]
  | body len got =>
    obtain ⟨positive, most, short⟩ := waiting
    simp only [ReadFrame.take, ReadFrame.held]
    split_ifs with more
    · exact ⟨⟨positive, most, more⟩, (List.append_assoc _ _ _).symm⟩
    · have whole : (got ++ [byte]).length = len := by
        simp at more ⊢
        omega
      exact ⟨⟨by omega, by omega⟩, by rw [encodeFrame, whole, List.append_assoc]⟩

end Framing

section Fidelity

-- A step together with what the task did in it.
def logged (conn : QuConnection) (input : ConnectionStep) :
    QuConnection × List (ConnectionStep × List ConnectionEvent) :=
  ((conn.step input).1, [(input, (conn.step input).2)])

def ConnectionStep.arrived : ConnectionStep → List UInt8
  | .arrive fragment => fragment
  | _ => []

def ConnectionEvent.msg? : ConnectionEvent → Option (List UInt8)
  | .handled msg => some msg
  | .wrote _ => none

-- The bytes the host has sent, and the frames passed to `handle_socket_frame`.
def streamOf (history : List (ConnectionStep × List ConnectionEvent)) : List UInt8 :=
  history.flatMap fun entry => entry.1.arrived

def passed (history : List (ConnectionStep × List ConnectionEvent)) : List (List UInt8) :=
  history.flatMap fun entry => entry.2.filterMap ConnectionEvent.msg?

-- A client message is taken only when the `read_frame` it drops has read nothing.
def QuConnection.Undisturbed (conn : QuConnection) : ConnectionStep → Prop
  | .client _ _ => conn.ended = none → conn.future.held = []
  | _ => True

-- The stream as frames, what the future holds of the next one, and what was not read.
structure Reads (stream : List UInt8) (msgs : List (List UInt8)) (conn : QuConnection) : Prop where
  sized : ∀ msg ∈ msgs, Sized msg
  going : conn.ended ≠ some .badLength → Waiting conn.future ∧
    stream = msgs.flatMap encodeFrame ++ (conn.future.held ++ conn.unread)
  stopped : conn.ended = some .badLength → ∃ lenBuf, lenBuf.length = 4 ∧
    (value lenBuf = 0 ∨ value lenBuf > maxMsgLen) ∧
    stream = msgs.flatMap encodeFrame ++ (lenBuf ++ conn.unread)

variable {conn : QuConnection} {stream : List UInt8} {msgs : List (List UInt8)}

theorem Reads.arrive (reads : Reads stream msgs conn) (fragment : List UInt8) :
    Reads (stream ++ fragment) msgs { conn with unread := conn.unread ++ fragment } := by
  refine ⟨reads.sized, fun going => ?_, fun bad => ?_⟩
  · obtain ⟨waiting, same⟩ := reads.going going
    exact ⟨waiting, by simp [same]⟩
  · obtain ⟨lenBuf, whole, value, same⟩ := reads.stopped bad
    exact ⟨lenBuf, whole, value, by simp [same]⟩

theorem Reads.read (reads : Reads stream msgs conn) (running : conn.ended = none) :
    Reads stream (msgs ++ conn.read.2.filterMap ConnectionEvent.msg?) conn.read.1 := by
  obtain ⟨waiting, same⟩ := reads.going (by simp [running])
  unfold QuConnection.read
  cases unread : conn.unread with
  | nil => simpa using reads
  | cons byte rest =>
    have spec := take_spec waiting byte
    have whole : stream = msgs.flatMap encodeFrame ++ ((conn.future.held ++ [byte]) ++ rest) := by
      rw [same, unread]
      simp
    cases taken : conn.future.take byte with
    | pending next =>
      rw [taken] at spec
      simp only [taken, List.filterMap_nil, List.append_nil]
      refine ⟨reads.sized, fun _ => ⟨spec.1, ?_⟩, fun bad => ?_⟩
      · rw [whole, spec.2]
      · simp [running] at bad
    | frame msg =>
      rw [taken] at spec
      simp only [taken, List.filterMap_cons, ConnectionEvent.msg?, List.filterMap_nil]
      refine ⟨fun other member => ?_, fun _ => ⟨by simp [ReadFrame.fresh, Waiting], ?_⟩,
        fun bad => ?_⟩
      · rcases List.mem_append.mp member with earlier | last
        · exact reads.sized other earlier
        · rw [List.mem_singleton.mp last]
          exact spec.1
      · rw [whole, ← spec.2]
        simp [ReadFrame.fresh, ReadFrame.held]
      · simp [running] at bad
    | badLength =>
      rw [taken] at spec
      simp only [taken, QuConnection.finish, List.filterMap_nil, List.append_nil]
      exact ⟨reads.sized, fun going => absurd rfl going, fun _ => ⟨_, spec.1, spec.2, whole⟩⟩

-- Ending for another reason than a bad length leaves what was read as it is.
theorem Reads.finish (reads : Reads stream msgs conn) (running : conn.ended = none)
    {reason : ConnectionEnd} (other : reason ≠ .badLength) :
    Reads stream (msgs ++ (conn.finish reason).2.filterMap ConnectionEvent.msg?)
      (conn.finish reason).1 := by
  refine ⟨by simpa [QuConnection.finish] using reads.sized, fun _ => ?_, fun bad => ?_⟩
  · simpa [QuConnection.finish] using reads.going (by simp [running])
  · simp [QuConnection.finish, other] at bad

theorem Reads.step (reads : Reads stream msgs conn) {input : ConnectionStep}
    (undisturbed : conn.Undisturbed input) :
    Reads (stream ++ input.arrived) (msgs ++ (conn.step input).2.filterMap ConnectionEvent.msg?)
      (conn.step input).1 := by
  have unmoved : Reads (stream ++ []) (msgs ++ []) conn := by simpa using reads
  -- A task that has returned keeps its state whatever the step is.
  have alive (next : QuConnection × List ConnectionEvent)
      (goes : conn.ended = none →
        Reads stream (msgs ++ next.2.filterMap ConnectionEvent.msg?) next.1) :
      Reads (stream ++ []) (msgs ++ (conn.live next).2.filterMap ConnectionEvent.msg?)
        (conn.live next).1 := by
    unfold QuConnection.live
    split_ifs with done
    · exact unmoved
    · rw [List.append_nil]
      exact goes (by simpa using done)
  cases input with
  | arrive fragment =>
    simpa [QuConnection.step, ConnectionStep.arrived] using reads.arrive fragment
  | read => exact alive _ reads.read
  | hostCloses =>
    refine alive _ fun running => ?_
    split_ifs
    · exact reads.finish running (by decide)
    · simpa using reads
  | client msg written =>
    refine alive _ fun running => ?_
    obtain ⟨-, same⟩ := reads.going (by simp [running])
    rw [undisturbed running] at same
    have restarted : Reads stream msgs { conn with future := .fresh } :=
      ⟨reads.sized, fun _ => ⟨by simp [ReadFrame.fresh, Waiting], same⟩,
        fun bad => absurd bad (by simp [running])⟩
    unfold QuConnection.writeFrame
    split_ifs
    · change Reads stream (msgs ++ []) _
      rwa [List.append_nil]
    · exact restarted.finish running (by decide)
  | relayExits => exact alive _ fun running => reads.finish running (by decide)
  | supersede =>
    refine alive _ fun running => ?_
    split_ifs
    · exact reads.finish running (by decide)
    · simpa using reads

theorem run_reads (steps : List ConnectionStep)
    (undisturbed : Runs.Along logged (fun _ => QuConnection.Undisturbed) [] .new steps) :
    Reads (streamOf (Runs.run logged .new steps).2) (passed (Runs.run logged .new steps).2)
      (Runs.run logged .new steps).1 := by
  refine Runs.run_invariant logged _
    (fun history conn => Reads (streamOf history) (passed history) conn) ?_ [] .new steps ?_
    undisturbed
  · intro history conn input reads undisturbed
    simpa [streamOf, passed, logged] using reads.step undisturbed
  · exact ⟨by simp [passed], fun _ => ⟨by simp [QuConnection.new, ReadFrame.fresh, Waiting], rfl⟩,
      nofun⟩

-- The frames handed on are those of the stream, in order and up to the first bad length; all of
-- them once everything has been read; and at a bad length, and only there, the connection ends.
def PassesFrames (conn : QuConnection)
    (history : List (ConnectionStep × List ConnectionEvent)) : Prop :=
  passed history <+: (frames (streamOf history)).1 ∧
  (conn.ended = some .badLength → frames (streamOf history) = (passed history, .badLength)) ∧
  (conn.unread = [] → frames (streamOf history) =
    (passed history, if conn.ended = some .badLength then .badLength else .more))

instance decidablePassesFrames (conn : QuConnection)
    (history : List (ConnectionStep × List ConnectionEvent)) :
    Decidable (PassesFrames conn history) :=
  inferInstanceAs (Decidable (_ ∧ (_ → _) ∧ (_ → _)))

instance decidableUndisturbed (conn : QuConnection) (input : ConnectionStep) :
    Decidable (conn.Undisturbed input) :=
  match input with
  | .client _ _ => inferInstanceAs (Decidable (_ → _))
  | .arrive _ | .read | .hostCloses | .relayExits | .supersede => .isTrue trivial

/-- In every interleaving in which no client message drops a `read_frame` that has read bytes, the
relay passes on the frames of the host's stream. -/
theorem run_passes_frames (steps : List ConnectionStep)
    (undisturbed : Runs.Along logged (fun _ => QuConnection.Undisturbed) [] .new steps) :
    PassesFrames (Runs.run logged .new steps).1 (Runs.run logged .new steps).2 := by
  have reads := run_reads steps undisturbed
  generalize Runs.run logged .new steps = reached at reads ⊢
  have bad (ended : reached.1.ended = some .badLength) :
      frames (streamOf reached.2) = (passed reached.2, .badLength) := by
    obtain ⟨lenBuf, whole, value, same⟩ := reads.stopped ended
    obtain ⟨fuel, enough, parsed⟩ := frames_encodes reads.sized (lenBuf ++ reached.1.unread)
    rw [List.length_append, whole] at enough
    obtain ⟨fuel, rfl⟩ := Nat.exists_eq_add_of_le' (show 1 ≤ fuel by omega)
    rw [same, parsed, framesFrom_bad whole value]
    simp
  have all (running : reached.1.ended ≠ some .badLength) : ∃ fuel,
      frames (streamOf reached.2) =
        (passed reached.2 ++ (framesFrom fuel (reached.1.future.held ++ reached.1.unread)).1,
          (framesFrom fuel (reached.1.future.held ++ reached.1.unread)).2) := by
    obtain ⟨-, same⟩ := reads.going running
    obtain ⟨fuel, -, parsed⟩ := frames_encodes reads.sized
      (reached.1.future.held ++ reached.1.unread)
    exact ⟨fuel, by rw [same, parsed]⟩
  refine ⟨?_, bad, fun read => ?_⟩
  · by_cases ended : reached.1.ended = some .badLength
    · rw [bad ended]
    · obtain ⟨fuel, parsed⟩ := all ended
      rw [parsed]
      exact List.prefix_append _ _
  · split_ifs with ended
    · exact bad ended
    · obtain ⟨fuel, parsed⟩ := all ended
      rw [parsed, read, List.append_nil, framesFrom_waiting (reads.going ended).1]
      simp

-- A frame in two fragments with a client message behind it, and a frame that is too short.
def clientBetween : List ConnectionStep :=
  [.arrive [2, 0], .read, .read, .arrive [0, 0, 7, 9], .read, .read, .read, .read,
    .client [0x82] true, .arrive [0, 0, 0, 0], .read, .read, .read, .read]

theorem run_passes_frames_between :
    passed (Runs.run logged .new clientBetween).2 = [[7, 9]] ∧
      PassesFrames (Runs.run logged .new clientBetween).1 (Runs.run logged .new clientBetween).2 :=
  ⟨by decide, run_passes_frames clientBetween (by decide)⟩

-- The same frame with the client message between its fragments.
def clientInside : List ConnectionStep :=
  [.arrive [2], .read, .client [0x82] true, .arrive [0, 0, 0, 7, 9], .read, .read, .read, .read,
    .read]

/-- The length that is read next is that of the last three bytes and the first of the message: the
frame is lost and the connection ends. -/
theorem client_inside_loses_frame :
    ¬ ∀ steps, PassesFrames (Runs.run logged .new steps).1 (Runs.run logged .new steps).2 := by
  intro passes
  exact absurd (passes clientInside) (by decide)

end Fidelity

end QuRelay

end BetterParsec
