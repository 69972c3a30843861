import BetterParsec.Streamer.FecSender
import BetterParsec.Fec.WindowLaw

set_option autoImplicit false
set_option linter.all false

/-!
# Symbol sizes

A chunk fits a source message, and a repair is no longer than the longest source
of its window with its length prefix. So a sender never makes a symbol that it
cannot encode.
-/

namespace BetterParsec

-- A symbol that a version 2 message has room for.
def Symbol.Fits : Symbol → Prop
  | .source _ payload => payload.length ≤ v2SourcePayloadMax
  | .repair _ _ _ payload => payload.length ≤ v2RepairPayloadMax

def Symbol.messageMax : Symbol → Nat
  | .source _ _ => fecMsgMax
  | .repair _ _ _ _ => v2RepairMsgMax

-- The symbol is encoded within the size of its kind of message.
def Symbol.Encodes (epoch : Epoch) (symbol : Symbol) : Prop :=
  ∃ bytes, FecSender.encodeSymbol .v2 epoch symbol = .ok bytes ∧ bytes.length ≤ symbol.messageMax

theorem Symbol.Fits.encodes {symbol : Symbol} (fits : symbol.Fits) (epoch : Epoch) :
    symbol.Encodes epoch := by
  cases symbol with
  | source seq payload =>
    have short : payload.length ≤ v2SourcePayloadMax := fits
    refine ⟨2 :: (leU32 epoch.get ++ leU32 seq ++ v2Tail payload), ?_, ?_⟩
    · rw [FecSender.encodeSymbol, encodeSymbolMsgV2, if_neg (Nat.not_lt.mpr short)]
    · simp only [v2SourcePayloadMax] at short
      simp only [Symbol.messageMax, fecMsgMax, List.length_cons, List.length_append, length_leU32,
        length_v2Tail]
      omega
  | repair repairSeq windowBase windowEnd payload =>
    have short : payload.length ≤ v2RepairPayloadMax := fits
    refine ⟨3 :: (leU32 epoch.get ++ leU16 repairSeq ++ leU32 windowBase ++ leU32 windowEnd ++
      v2Tail payload), ?_, ?_⟩
    · rw [FecSender.encodeSymbol, encodeSymbolMsgV2, if_neg (Nat.not_lt.mpr short)]
    · simp only [v2RepairPayloadMax] at short
      simp only [Symbol.messageMax, v2RepairMsgMax, List.length_cons, List.length_append,
        length_leU32, length_leU16, length_v2Tail]
      omega

/-- Every chunk of a version 2 frame fits a source message. -/
theorem chunkFrameV2_short {frameId timestampUs : UInt32} {frameTypeKey : Bool}
    {data : List UInt8} {chunks : List Payload}
    (cut : chunkFrameV2 frameId frameTypeKey timestampUs data = .ok chunks) :
    ∀ chunk ∈ chunks, chunk.length ≤ v2SourcePayloadMax := by
  have fits : data.length ≤ encodedFrameMax := by
    by_contra long
    rw [chunkFrameV2, if_pos (Nat.lt_of_not_le long)] at cut
    contradiction
  rw [chunkFrameV2_eq frameId frameTypeKey timestampUs fits] at cut
  cases cut
  intro chunk member
  obtain ⟨index, -, rfl⟩ := List.mem_map.mp member
  have short := fragmentAt_short data index
  simp only [chunkV2FragmentMax] at short
  simp only [length_chunkV2Bytes, chunkV2HeaderLen, v2SourcePayloadMax]
  omega

namespace FecEncoder

-- The longest source payload with its length prefix.
def prefixedMax : Nat := v2SourcePayloadMax + 2

def Fits (encoder : FecEncoder) : Prop :=
  ∀ entry ∈ encoder.window, entry.prefixedPayload.length ≤ prefixedMax

theorem fits_new (config : FecConfig) : (new config).Fits := fun _ member => (nomatch member)

theorem maxEffLen_le_of_forall {window : List WindowEntry} {most : Nat}
    (each : ∀ entry ∈ window, entry.prefixedPayload.length ≤ most) : maxEffLen window ≤ most := by
  induction window with
  | nil => exact Nat.zero_le most
  | cons entry rest ih =>
    have later := ih (fun other member => each other (List.mem_cons_of_mem entry member))
    exact Nat.max_le.mpr ⟨each entry List.mem_cons_self, later⟩

variable {encoder : FecEncoder}

theorem Fits.drop (fits : encoder.Fits) {dropped : Nat} {last : FecEncoder}
    (window : last.window = encoder.window.drop dropped) : last.Fits := by
  intro entry member
  rw [window] at member
  exact fits entry (List.mem_of_mem_drop member)

theorem Fits.acknowledge (fits : encoder.Fits) (highest : UInt32) :
    (encoder.acknowledge highest).Fits := by
  obtain ⟨dropped, window⟩ := encoder.acknowledge_window highest
  exact fits.drop window

theorem Fits.pushSource (fits : encoder.Fits) (seq : UInt32) {payload : Payload}
    (short : payload.length ≤ v2SourcePayloadMax) : (encoder.pushSource seq payload).1.Fits := by
  obtain ⟨dropped, room⟩ := encoder.makeRoom_window payload.length
  intro entry member
  rw [(encoder.pushSource_frame seq payload).1, stored] at member
  rcases List.mem_append.mp member with old | new
  · exact fits.drop room entry old
  · rw [List.mem_singleton.mp new, prefixed, List.length_cons, List.length_cons, prefixedMax]
    omega

/-- What a push emits fits its messages. -/
theorem Fits.pushSource_symbols (fits : encoder.Fits) (seq : UInt32) {payload : Payload}
    (short : payload.length ≤ v2SourcePayloadMax) :
    (encoder.pushSource seq payload).2.source.Fits ∧
      ∀ repair ∈ (encoder.pushSource seq payload).2.repairs, repair.Fits := by
  refine ⟨short, fun repair member => ?_⟩
  obtain ⟨repairSeq, front, back, combined, rfl, -, -, length, -⟩ :=
    encoder.pushSource_repairOf seq payload repair member
  have most := maxEffLen_le_of_forall (fits.pushSource seq short)
  rw [← length, prefixedMax, v2SourcePayloadMax] at most
  change combined.length ≤ v2RepairPayloadMax
  rw [v2RepairPayloadMax]
  omega

end FecEncoder

-- A chunk of some version 2 frame.
def IsChunk (payload : Payload) : Prop :=
  ∃ frameId frameTypeKey timestampUs data chunks, data.length ≤ encodedFrameMax ∧
    chunkFrameV2 frameId frameTypeKey timestampUs data = .ok chunks ∧ payload ∈ chunks

theorem IsChunk.short {payload : Payload} (chunk : IsChunk payload) :
    payload.length ≤ v2SourcePayloadMax := by
  obtain ⟨_, _, _, _, _, -, cut, member⟩ := chunk
  exact chunkFrameV2_short cut payload member

theorem Sender.step_fits {stream : Nat → Payload} {sender : Sender} (fits : sender.encoder.Fits)
    (chunks : ∀ index, IsChunk (stream index)) (call : EncoderCall) :
    (sender.step stream call).1.encoder.Fits ∧
      ∀ emission ∈ (sender.step stream call).2, emission.symbol.Fits := by
  cases call with
  | pushSource =>
    have short := (chunks sender.next).short
    obtain ⟨source, repairs⟩ := fits.pushSource_symbols (UInt32.ofNat sender.next) short
    refine ⟨fits.pushSource _ short, fun emission member => ?_⟩
    rcases List.mem_cons.mp member with rfl | member
    · exact source
    · obtain ⟨repair, made, rfl⟩ := List.mem_map.mp member
      exact repairs repair made
  | setRedundancy numerator denominator => exact ⟨fits, fun _ member => (nomatch member)⟩
  | acknowledge highest => exact ⟨fits.acknowledge highest, fun _ member => (nomatch member)⟩

/-- Whatever chunks an encoder is fed, and however acknowledgements come in between, it emits
symbols that fit their messages. -/
theorem emissions_fit (stream : Nat → Payload) (chunks : ∀ index, IsChunk (stream index))
    (config : FecConfig) (start : Nat) (calls : List EncoderCall) :
    ∀ emission ∈ (Runs.run (Sender.step stream) ⟨.new config, start⟩ calls).2,
      emission.symbol.Fits := by
  have kept := Runs.run_invariant_of_forall (Sender.step stream)
    (fun seen sender => sender.encoder.Fits ∧ ∀ emission ∈ seen, emission.symbol.Fits)
    (fun seen sender call held => by
      obtain ⟨next, fresh⟩ := Sender.step_fits held.1 chunks call
      refine ⟨next, fun emission member => ?_⟩
      rcases List.mem_append.mp member with old | new
      · exact held.2 emission old
      · exact fresh emission new)
    [] ⟨.new config, start⟩ calls ⟨FecEncoder.fits_new config, fun _ member => (nomatch member)⟩
  exact kept.2

namespace FecSender

-- All that is under way in the task can be encoded, and encoding has not failed.
structure Sound (sender : FecSender) : Prop where
  wire : sender.wireVersion = .v2
  encoder : sender.encoder.Fits
  exit : sender.exit ≠ some .encodeFailed
  chunks : ∀ current, sender.phase = .sending current →
    ∀ chunk ∈ current.chunks, chunk.length ≤ v2SourcePayloadMax
  repairs : ∀ current, sender.phase = .sending current → ∀ repair ∈ current.repairs, repair.Fits

variable {sender : FecSender}

-- A step that leaves the task where it is.
theorem Sound.congr (sound : sender.Sound) {last : FecSender}
    (wire : last.wireVersion = sender.wireVersion) (encoder : last.encoder = sender.encoder)
    (exit : last.exit = sender.exit) (phase : last.phase = sender.phase) : last.Sound :=
  ⟨wire.trans sound.wire, encoder ▸ sound.encoder, exit ▸ sound.exit,
    phase ▸ sound.chunks, phase ▸ sound.repairs⟩

-- A step after which the task is not at work on a frame.
theorem Sound.idle (sound : sender.Sound) {last : FecSender}
    (wire : last.wireVersion = sender.wireVersion) (encoder : last.encoder = sender.encoder)
    (exit : last.exit = sender.exit) (idle : ∀ current, last.phase ≠ .sending current) :
    last.Sound :=
  ⟨wire.trans sound.wire, encoder ▸ sound.encoder, exit ▸ sound.exit,
    fun current phase => absurd phase (idle current),
    fun current phase => absurd phase (idle current)⟩

theorem Sound.stop (sound : sender.Sound) {exit : FecSenderExit} (other : exit ≠ .encodeFailed) :
    (sender.stop exit).Sound :=
  ⟨sound.wire, sound.encoder, fun same => other (Option.some.inj same),
    fun _ phase => (nomatch phase), fun _ phase => (nomatch phase)⟩

theorem Sound.beginEnqueue (sound : sender.Sound) (data : List UInt8) (isKey : Bool)
    (timestampUs : UInt32) (now : Nat) : (sender.beginEnqueue data isKey timestampUs now).Sound := by
  unfold FecSender.beginEnqueue
  split_ifs
  · exact sound
  · exact sound
  · exact sound.congr rfl rfl rfl rfl
  · exact sound.congr rfl rfl rfl rfl

theorem Sound.enqueue (sound : sender.Sound) (frame : FecFrame) :
    (sender.enqueue frame).1.Sound := by
  unfold FecSender.enqueue
  dsimp only
  split_ifs
  · exact sound
  · exact sound.congr rfl rfl rfl rfl
  · exact sound.congr rfl rfl rfl rfl
  · exact sound.congr rfl rfl rfl rfl

theorem Sound.commitEnqueue (sound : sender.Sound) (index : Nat) :
    (sender.commitEnqueue index).1.Sound := by
  unfold FecSender.commitEnqueue
  split
  · exact sound
  · rename_i frame _
    have removed : ({ sender with entering := sender.entering.eraseIdx index } : FecSender).Sound :=
      sound.congr rfl rfl rfl rfl
    exact removed.enqueue frame

theorem Sound.forwardControl (sound : sender.Sound) (msg : ParsedControlMsg) :
    (sender.forwardControl msg).Sound := by
  unfold FecSender.forwardControl
  split
  · exact sound
  · split_ifs
    · exact sound
    · exact sound.congr rfl rfl rfl rfl

theorem Sound.receive (sound : sender.Sound) : sender.receive.Sound := by
  unfold FecSender.receive
  split
  · exact sound.congr rfl rfl rfl rfl
  · exact ⟨sound.wire, sound.encoder.acknowledge _, sound.exit, sound.chunks, sound.repairs⟩
  · exact sound.congr rfl rfl rfl rfl
  · split_ifs
    · exact sound
    · exact sound.stop (by decide)
    · exact sound.stop (by decide)
  all_goals exact sound

theorem Sound.takeFrame (sound : sender.Sound) (draining : sender.phase = .draining) (now : Nat) :
    (sender.takeFrame now).1.Sound := by
  have resting (current : SendingFrame) : sender.phase ≠ .sending current := by
    rw [draining]
    exact nofun
  unfold FecSender.takeFrame
  split
  · exact sound.idle rfl rfl rfl nofun
  · split_ifs
    · exact sound.idle rfl rfl rfl resting
    · dsimp only
      split
      · exact sound.idle rfl rfl rfl resting
      · rename_i chunks cut
        rw [sound.wire] at cut
        refine ⟨sound.wire, sound.encoder, sound.exit, fun current phase => ?_,
          fun current phase => ?_⟩
        · cases phase
          exact chunkFrameV2_short cut
        · cases phase
          exact fun _ member => (nomatch member)

theorem Sound.sendChunk (sound : sender.Sound) {current : SendingFrame} {chunk : Payload}
    {rest : List Payload} (phase : sender.phase = .sending current)
    (next : current.chunks = chunk :: rest) (done : current.repairs = []) (now : Nat)
    (delivered : Bool) : (sender.sendChunk current chunk rest now delivered).1.Sound := by
  have chunks := sound.chunks current phase
  rw [next] at chunks
  have short := chunks chunk List.mem_cons_self
  have later := fun other member => chunks other (List.mem_cons_of_mem chunk member)
  obtain ⟨source, repairs⟩ := sound.encoder.pushSource_symbols sender.nextSeq short
  have pushed := sound.encoder.pushSource sender.nextSeq short
  obtain ⟨bytes, encoded, -⟩ := source.encodes sender.epoch
  rw [← sound.wire] at encoded
  have numbered : ({ sender with
      encoder := (sender.encoder.pushSource sender.nextSeq chunk).1
      nextSeq := sender.nextSeq + 1 } : FecSender).Sound :=
    ⟨sound.wire, pushed, sound.exit, sound.chunks, sound.repairs⟩
  unfold FecSender.sendChunk
  by_cases expired : current.frame.expired now
  · rw [if_pos expired]
    refine ⟨sound.wire, sound.encoder, sound.exit, fun other same => ?_, fun other same => ?_⟩
    · cases same
      exact later
    · cases same
      dsimp only
      rw [done]
      exact fun _ member => (nomatch member)
  rw [if_neg expired]
  by_cases superseded : sender.superseded
  · rw [if_pos superseded]
    exact sound.stop nofun
  rw [if_neg superseded]
  simp only [encoded]
  cases delivered with
  | true =>
    refine ⟨sound.wire, pushed, sound.exit, fun other same => ?_, fun other same => ?_⟩
    · cases same
      exact later
    · cases same
      exact repairs
  | false => exact numbered.stop nofun

theorem Sound.sendRepair (sound : sender.Sound) {current : SendingFrame} {repair : Symbol}
    {rest : List Symbol} (phase : sender.phase = .sending current)
    (next : current.repairs = repair :: rest) (now : Nat) (delivered : Bool) :
    (sender.sendRepair current repair rest now delivered).1.Sound := by
  have chunks := sound.chunks current phase
  have repairs := sound.repairs current phase
  rw [next] at repairs
  have later := fun other member => repairs other (List.mem_cons_of_mem repair member)
  obtain ⟨bytes, encoded, -⟩ := (repairs repair List.mem_cons_self).encodes sender.epoch
  rw [← sound.wire] at encoded
  unfold FecSender.sendRepair
  by_cases expired : current.frame.expired now
  · rw [if_pos expired]
    refine ⟨sound.wire, sound.encoder, sound.exit, fun other same => ?_, fun other same => ?_⟩
    · cases same
      exact chunks
    · cases same
      exact fun _ member => (nomatch member)
  rw [if_neg expired]
  by_cases superseded : sender.superseded
  · rw [if_pos superseded]
    exact sound.stop nofun
  rw [if_neg superseded]
  simp only [encoded]
  cases delivered with
  | true =>
    refine ⟨sound.wire, sound.encoder, sound.exit, fun other same => ?_, fun other same => ?_⟩
    · cases same
      exact chunks
    · cases same
      exact later
  | false => exact sound.stop nofun

theorem Sound.task (sound : sender.Sound) (now : Nat) (delivered : Bool) :
    (sender.task now delivered).1.Sound := by
  unfold FecSender.task
  split
  · split_ifs
    · exact sound.idle rfl rfl rfl nofun
    · exact sound
  · rename_i draining
    exact sound.takeFrame draining now
  · rename_i current phase
    split
    · rename_i repair rest next
      exact sound.sendRepair phase next now delivered
    · rename_i chunk rest done next
      exact sound.sendChunk phase next done now delivered
    · exact sound.idle rfl rfl rfl nofun
  · exact sound

theorem Sound.step (sound : sender.Sound) (input : SenderStep) : (sender.step input).1.Sound := by
  cases input with
  | beginEnqueue data isKey timestampUs now => exact sound.beginEnqueue data isKey timestampUs now
  | commitEnqueue index => exact sound.commitEnqueue index
  | forwardControl msg => exact sound.forwardControl msg
  | requestIdr => exact sound.congr rfl rfl rfl rfl
  | consumeNeedsIdr => exact sound.congr rfl rfl rfl rfl
  | bumpGeneration => exact sound.congr rfl rfl rfl rfl
  | dropHandle => exact sound.congr rfl rfl rfl rfl
  | receive => exact sound.receive
  | task now delivered => exact sound.task now delivered

theorem run_sound (ownGeneration generation : UInt32) (needsIdr : Bool) (epoch : Epoch)
    (steps : List SenderStep) :
    (Runs.run FecSender.step (spawn ownGeneration generation needsIdr .v2 epoch) steps).1.Sound :=
  Runs.run_invariant_of_forall FecSender.step (fun _ sender => sender.Sound)
    (fun _ _ input sound => sound.step input) [] _ steps
    ⟨rfl, FecEncoder.fits_new _, nofun, nofun, nofun⟩

end FecSender

/-- Cutting, coding and encoding never fail on a frame within the size limit: every chunk is made,
every symbol fits its message, and no run of the sender ends because of an encoding. -/
theorem sender_encodes (epoch : Epoch) :
    (∀ frameId frameTypeKey timestampUs, ∀ data : List UInt8, data.length ≤ encodedFrameMax →
      (∀ index < chunkCountOf data.length, ∃ chunk,
        encodeChunkV2 (chunkHeaderV2 frameId frameTypeKey timestampUs data index)
          (fragmentAt data index) = .ok chunk) ∧
      ∃ chunks, chunkFrameV2 frameId frameTypeKey timestampUs data = .ok chunks ∧
        chunks.length ≤ v2ChunkCountMax.toNat) ∧
    (∀ stream, (∀ index, IsChunk (stream index)) → ∀ config start calls,
      ∀ emission ∈ (Runs.run (Sender.step stream) ⟨.new config, start⟩ calls).2,
        emission.symbol.Encodes epoch) ∧
    ∀ ownGeneration generation needsIdr steps,
      (Runs.run FecSender.step (.spawn ownGeneration generation needsIdr .v2 epoch)
        steps).1.exit ≠ some .encodeFailed := by
  refine ⟨fun frameId frameTypeKey timestampUs data fits => ⟨fun index inside => ?_, _,
    chunkFrameV2_eq frameId frameTypeKey timestampUs fits, ?_⟩, ?_, ?_⟩
  · have valid := chunkHeaderV2_valid frameId frameTypeKey timestampUs fits inside
    rw [encodeChunkV2, valid]
    exact ⟨_, rfl⟩
  · rw [List.length_map, List.length_range]
    exact chunkCountOf_le fits
  · intro stream chunks config start calls emission member
    exact (emissions_fit stream chunks config start calls emission member).encodes epoch
  · intro ownGeneration generation needsIdr steps
    exact (FecSender.run_sound ownGeneration generation needsIdr epoch steps).exit

theorem sender_encodes_single :
    ∃ chunks, chunkFrameV2 0 true 0 [7] = .ok chunks ∧ chunks.length ≤ v2ChunkCountMax.toNat :=
  ((sender_encodes ⟨1, by decide⟩).1 0 true 0 [7] (by decide)).2

end BetterParsec
