import BetterParsec.App.AudioConvert
import BetterParsec.Library.Frames
import BetterParsec.Library.Runs

set_option autoImplicit false
set_option linter.all false

/-!
# The loop that plays audio

`run_shared` and `run_exclusive` of `app-native/src/audio.rs`: packets are converted
into a queue of samples that is trimmed at its cap, and the device takes samples out
of it. Whole frames go in, whole frames are dropped, and whole frames come out.
-/

namespace BetterParsec

namespace Audio

open Frames (Framed)

variable {Sample : Type} (ops : SampleOps Sample)

-- An open device; `exclusive` is one of `run_exclusive`.
structure Sink where
  exclusive : Bool
  rate : Nat
  channels : Nat
  positive : 0 < channels

structure Playback (Sample : Type) where
  sink : Option Sink := none
  fifo : List Sample := []
  fifoCap : Nat := 0

inductive Event (Sample : Type) where
  -- The device is built, or built again.
  | opened (sink : Sink)
  | failed
  -- A packet that was decoded.
  | packet (packet : Packet Sample)
  -- The device has room for this many frames.
  | fill (writable : Nat)

inductive Output (Sample : Type) where
  -- One call of `map_channels`.
  | mapped (channels : Nat) (frame : List Sample)
  -- What is written to the device.
  | handed (channels : Nat) (samples : List Sample)
  | panicked

-- `while fifo.len() > cap { fifo.pop_front(); }`
def trim (cap : Nat) : List Sample → List Sample
  | [] => []
  | sample :: rest => if (sample :: rest).length > cap then trim cap rest else sample :: rest

-- `pop_front().unwrap_or(0.0)`, this many times.
def popSamples : Nat → List Sample → List Sample × List Sample
  | 0, fifo => ([], fifo)
  | count + 1, [] =>
      let (popped, fifo) := popSamples count []
      (ops.silence :: popped, fifo)
  | count + 1, sample :: rest =>
      let (popped, fifo) := popSamples count rest
      (sample :: popped, fifo)

def Sink.baseCap (sink : Sink) : Nat :=
  if sink.exclusive then sink.rate * 40 / 1000 * sink.channels
  else sink.rate / 4 * sink.channels

def Sink.frames (sink : Sink) (fifo : List Sample) (writable : Nat) : Nat :=
  if sink.exclusive then writable else min (fifo.length / sink.channels) writable

namespace Playback

def openSink (delayMs : Nat) (sink : Sink) : Playback Sample :=
  let silence := debugDelaySamples sink.rate sink.channels delayMs
  if 0 < delayMs then
    { sink := some sink
      fifo := List.replicate silence ops.silence
      fifoCap := sink.baseCap + silence }
  else { sink := some sink, fifo := [], fifoCap := sink.baseCap }

def step (delayMs : Nat) (playback : Playback Sample) :
    Event Sample → Playback Sample × List (Output Sample)
  | .opened sink => (openSink ops delayMs sink, [])
  | .failed => ({ playback with sink := none, fifo := [] }, [])
  | .packet packet =>
      match playback.sink with
      | none => (playback, [])
      | some sink =>
          match convertInto ops packet.pcm packet.channels sourceRate sink.rate sink.channels with
          | none => (playback, [.panicked])
          | some calls =>
              ({ playback with fifo := trim playback.fifoCap (playback.fifo ++ calls.flatten) },
                calls.map (.mapped sink.channels))
  | .fill writable =>
      match playback.sink with
      | none => (playback, [])
      | some sink =>
          let frames := sink.frames playback.fifo writable
          if frames = 0 then (playback, [])
          else
            let (popped, fifo) := popSamples ops (frames * sink.channels) playback.fifo
            ({ playback with fifo }, [.handed sink.channels popped])

end Playback

theorem trim_eq_drop (cap : Nat) (fifo : List Sample) :
    trim cap fifo = fifo.drop (fifo.length - cap) := by
  induction fifo with
  | nil => simp [trim]
  | cons sample rest ih =>
    rw [trim]
    split_ifs with long
    · have more : (sample :: rest).length - cap = rest.length - cap + 1 := by
        simp only [List.length_cons] at long ⊢
        omega
      rw [ih, more, List.drop_succ_cons]
    · rw [Nat.sub_eq_zero_of_le (Nat.not_lt.mp long), List.drop_zero]

theorem popSamples_eq (count : Nat) (fifo : List Sample) :
    popSamples ops count fifo =
      (fifo.take count ++ List.replicate (count - fifo.length) ops.silence, fifo.drop count) := by
  induction count generalizing fifo with
  | zero => simp [popSamples]
  | succ count ih =>
    cases fifo with
    | nil => simp [popSamples, ih, List.replicate_succ]
    | cons sample rest => simp [popSamples, ih]

-- Silence, or what a call of `map_channels` gave.
def Sourced (before : List (Output Sample)) (channels : Nat) (frame : List Sample) : Prop :=
  frame = List.replicate channels ops.silence ∨ .mapped channels frame ∈ before

def Output.Sound (before : List (Output Sample)) : Output Sample → Prop
  | .mapped channels frame => ∃ source, frame = mapChannels ops source channels
  | .handed channels samples => Framed channels (Sourced ops before channels) samples
  | .panicked => False

-- The queue is made of frames of the device, and so is its cap.
structure Aligned (before : List (Output Sample)) (playback : Playback Sample) : Prop where
  idle : playback.sink = none → playback.fifo = []
  framed : ∀ sink ∈ playback.sink,
    Framed sink.channels (Sourced ops before sink.channels) playback.fifo
  cap : ∀ sink ∈ playback.sink, sink.channels ∣ playback.fifoCap
  bounded : playback.fifo.length ≤ playback.fifoCap

variable {ops} {before : List (Output Sample)} {playback : Playback Sample}

theorem Sourced.later {channels : Nat} (more : List (Output Sample)) (frame : List Sample)
    (sourced : Sourced ops before channels frame) :
    Sourced ops (before ++ more) channels frame :=
  sourced.imp id (List.mem_append_left more)

theorem dvd_baseCap (sink : Sink) : sink.channels ∣ sink.baseCap := by
  unfold Sink.baseCap
  split_ifs <;> exact Nat.dvd_mul_left _ _

theorem aligned_openSink (delayMs : Nat) (sink : Sink) (before : List (Output Sample)) :
    Aligned ops before (Playback.openSink ops delayMs sink) := by
  have silent : Framed sink.channels (Sourced ops before sink.channels)
      (List.replicate (debugDelaySamples sink.rate sink.channels delayMs) ops.silence) :=
    Frames.replicate ops.silence _ (.inl rfl)
  unfold Playback.openSink
  split_ifs
  · refine ⟨by simp, ?_, ?_, by simp⟩
    · rintro _ ⟨⟩
      exact silent
    · rintro _ ⟨⟩
      exact dvd_add (dvd_baseCap sink) (Nat.dvd_mul_left _ _)
  · refine ⟨by simp, ?_, ?_, by simp⟩
    · rintro _ ⟨⟩
      exact Frames.nil
    · rintro _ ⟨⟩
      exact dvd_baseCap sink

/-- Trimming drops whole frames. -/
theorem framed_trim {width cap : Nat} {property : List Sample → Prop} {fifo : List Sample}
    (framed : Framed width property fifo) (whole : width ∣ cap) :
    Framed width property (trim cap fifo) ∧ (trim cap fifo).length ≤ cap := by
  obtain ⟨count, number⟩ := Nat.dvd_sub framed.dvd_length whole
  rw [trim_eq_drop]
  constructor
  · rw [number, Nat.mul_comm]
    exact framed.drop count
  · rw [List.length_drop]
    omega

/-- The device takes whole frames, the last of them silence if the queue runs out. -/
theorem framed_popSamples {width : Nat} {property : List Sample → Prop} {fifo : List Sample}
    (framed : Framed width property fifo) (quiet : property (List.replicate width ops.silence))
    (frames : Nat) :
    Framed width property (popSamples ops (frames * width) fifo).1 ∧
      Framed width property (popSamples ops (frames * width) fifo).2 := by
  obtain ⟨count, number⟩ := Nat.dvd_sub (Nat.dvd_mul_left width frames) framed.dvd_length
  rw [popSamples_eq]
  refine ⟨(framed.take frames).append ?_, framed.drop frames⟩
  rw [number, Nat.mul_comm]
  exact Frames.replicate ops.silence count quiet

theorem Aligned.packet (aligned : Aligned ops before playback) {sink : Sink}
    (running : playback.sink = some sink) (calls : List (List Sample))
    (each : ∀ call ∈ calls, ∃ frame, call = mapChannels ops frame sink.channels) :
    Aligned ops (before ++ calls.map (.mapped sink.channels))
      { playback with fifo := trim playback.fifoCap (playback.fifo ++ calls.flatten) } := by
  have queued := (aligned.framed sink running).mono
    (Sourced.later (calls.map (.mapped sink.channels)))
  have added : Framed sink.channels
      (Sourced ops (before ++ calls.map (.mapped sink.channels)) sink.channels) calls.flatten := by
    refine Frames.of_frames fun call member => ⟨?_, .inr ?_⟩
    · obtain ⟨frame, rfl⟩ := each call member
      exact length_mapChannels ops frame sink.positive
    · exact List.mem_append_right before (List.mem_map_of_mem member)
  obtain ⟨framed, short⟩ := framed_trim (queued.append added) (aligned.cap sink running)
  refine ⟨fun idle => ?_, fun other here => ?_, aligned.cap, short⟩
  · rw [running] at idle
    simp at idle
  · obtain rfl : sink = other := Option.some.inj (running.symm.trans here)
    exact framed

theorem Aligned.fill (aligned : Aligned ops before playback) {sink : Sink}
    (running : playback.sink = some sink) (frames : Nat) (more : List (Output Sample)) :
    Framed sink.channels (Sourced ops before sink.channels)
        (popSamples ops (frames * sink.channels) playback.fifo).1 ∧
      Aligned ops (before ++ more)
        { playback with fifo := (popSamples ops (frames * sink.channels) playback.fifo).2 } := by
  obtain ⟨popped, left⟩ := framed_popSamples (aligned.framed sink running) (.inl rfl) frames
  refine ⟨popped, fun idle => ?_, fun other here => ?_, aligned.cap, ?_⟩
  · rw [running] at idle
    simp at idle
  · obtain rfl : sink = other := Option.some.inj (running.symm.trans here)
    exact left.mono (Sourced.later more)
  · rw [popSamples_eq, List.length_drop]
    exact (Nat.sub_le _ _).trans aligned.bounded

theorem Aligned.step (aligned : Aligned ops before playback) (delayMs : Nat)
    (event : Event Sample) (emitted : Runs.Emissions (Output.Sound ops) before) :
    Aligned ops (before ++ (playback.step ops delayMs event).2)
        (playback.step ops delayMs event).1 ∧
      Runs.Emissions (Output.Sound ops) (before ++ (playback.step ops delayMs event).2) := by
  have still : Aligned ops (before ++ []) playback ∧
      Runs.Emissions (Output.Sound ops) (before ++ []) := by
    rw [List.append_nil]
    exact ⟨aligned, emitted⟩
  cases event with
  | opened sink =>
    refine ⟨aligned_openSink delayMs sink _, ?_⟩
    exact still.2
  | failed =>
    refine ⟨⟨fun _ => rfl, fun sink here => by simp [Playback.step] at here,
      fun sink here => by simp [Playback.step] at here, Nat.zero_le _⟩, still.2⟩
  | packet packet =>
    cases running : playback.sink with
    | none =>
      have stays : playback.step ops delayMs (.packet packet) = (playback, []) := by
        simp only [Playback.step, running]
      rw [stays]
      exact still
    | some sink =>
      obtain ⟨calls, converted, -, each⟩ := convertInto_spec ops packet.pcm packet.channels
        sourceRate sink.rate sink.positive
      have goes : playback.step ops delayMs (.packet packet) =
          ({ playback with fifo := trim playback.fifoCap (playback.fifo ++ calls.flatten) },
            calls.map (.mapped sink.channels)) := by
        simp only [Playback.step, running, converted]
      rw [goes]
      refine ⟨aligned.packet running calls each, emitted.append fun earlier output member => ?_⟩
      obtain ⟨call, inside, rfl⟩ := List.mem_map.mp member
      exact each call inside
  | fill writable =>
    cases running : playback.sink with
    | none =>
      have stays : playback.step ops delayMs (.fill writable) = (playback, []) := by
        simp only [Playback.step, running]
      rw [stays]
      exact still
    | some sink =>
      by_cases empty : sink.frames playback.fifo writable = 0
      · have stays : playback.step ops delayMs (.fill writable) = (playback, []) := by
          simp only [Playback.step, running, empty, if_true]
        rw [stays]
        exact still
      · have goes : playback.step ops delayMs (.fill writable) =
            ({ playback with
                fifo := (popSamples ops (sink.frames playback.fifo writable * sink.channels)
                  playback.fifo).2 },
              [.handed sink.channels
                (popSamples ops (sink.frames playback.fifo writable * sink.channels)
                  playback.fifo).1]) := by
          simp only [Playback.step, running, empty, if_false]
        rw [goes]
        obtain ⟨popped, left⟩ := aligned.fill running (sink.frames playback.fifo writable) _
        exact ⟨left, emitted.concat popped⟩

/-- After every run of the loop the queue holds whole frames of the device, no more than its cap,
and all that the device was handed is silence and the frames that were mapped for it. -/
theorem audio_stays_aligned (ops : SampleOps Sample) (delayMs : Nat) (events : List (Event Sample)) :
    let (playback, output) := Runs.run (Playback.step ops delayMs) {} events
    (∀ sink ∈ playback.sink, sink.channels ∣ playback.fifo.length) ∧
      playback.fifo.length ≤ playback.fifoCap ∧
      Runs.Emissions (Output.Sound ops) output := by
  have kept := Runs.run_invariant_of_forall (Playback.step ops delayMs)
    (fun before playback => Aligned ops before playback ∧
      Runs.Emissions (Output.Sound ops) before)
    (fun before playback event held => held.1.step delayMs event held.2) [] {} events
    ⟨⟨fun _ => rfl, by simp, by simp, by simp⟩, Runs.emissions_nil _⟩
  rw [List.nil_append] at kept
  exact ⟨fun sink here => (kept.1.framed sink here).dvd_length, kept.1.bounded, kept.2⟩

end Audio

end BetterParsec
