import BetterParsec.Browser.VideoDecoderPipe

set_option autoImplicit false
set_option linter.all false

/-!
# Key frames first

Directly the decoder of WebCodecs gets a key frame behind every configuration. Behind a
translator it does exactly if the parameter sets come with key frames.
-/

namespace BetterParsec

namespace WebCodecs

open Translator (VideoDecodeUnit VideoDecoderConfig Submitted H264StreamVideoTranslator
  H265StreamVideoTranslator slicesOf)
open Runs (EmissionsAfter Along)

-- What the calls make of a `VideoDecoder`.
def status (calls : List Call) : CodecState := calls.foldl CodecState.after .unconfigured

-- `decode` is called while the decoder is configured, with a key frame if it is the first.
def Permitted (seen : List Call) : Call → Prop
  | .decode chunk => (status seen).takes chunk
  | _ => True

instance decidablePermitted (seen : List Call) (call : Call) : Decidable (Permitted seen call) :=
  match call with
  | .reset => .isTrue trivial
  | .configure _ => .isTrue trivial
  | .decode _ => inferInstanceAs (Decidable (_ = true))

namespace StreamTranslator

def hasDescription : StreamTranslator → Bool
  | .h264 translator => translator.fields.hasDescription
  | .h265 translator => translator.fields.hasDescription

-- A parameter set is too short to be read.
def refuses (data : List UInt8) : StreamTranslator → Bool
  | .h264 _ => (slicesOf data).any fun nal => decide (H264StreamVideoTranslator.Cut nal)
  | .h265 _ => false

-- The sets that were kept and those of the unit make a description.
def completes (data : List UInt8) : StreamTranslator → Bool
  | .h264 translator =>
      H264StreamVideoTranslator.description.complete
        (H264StreamVideoTranslator.description.after translator.fields data)
  | .h265 translator =>
      H265StreamVideoTranslator.description.complete
        (H265StreamVideoTranslator.description.after translator.fields data)

/-- A unit is passed over, or throws, or gives a chunk. -/
theorem submitDecodeUnit_cases {translator : StreamTranslator} (decodeUnit : VideoDecodeUnit)
    (known : translator.decoderConfig.isSome) :
    (¬(decodeUnit.key || translator.hasDescription) ∧
      translator.submitDecodeUnit decodeUnit = .ok (translator, .done none none)) ∨
    (decodeUnit.key || translator.hasDescription) ∧
      ((translator.refuses decodeUnit.data = true ∧
        ∃ left, translator.submitDecodeUnit decodeUnit = .error left ∧
          left.hasDescription = translator.hasDescription ∧ left.decoderConfig.isSome) ∨
      translator.refuses decodeUnit.data = false ∧ ∃ next configure chunk,
        translator.submitDecodeUnit decodeUnit = .ok (next, .done configure (some chunk)) ∧
        configure.isSome = translator.completes decodeUnit.data ∧
        next.hasDescription =
          (translator.hasDescription || translator.completes decodeUnit.data) ∧
        next.decoderConfig.isSome) := by
  cases translator with
  | h264 translator =>
    refine (Translator.submitDecodeUnit_cases H264StreamVideoTranslator.lawful
      H264StreamVideoTranslator.describes decodeUnit known).imp ?_ (And.imp_right (Or.imp ?_ ?_))
    · rintro ⟨passed, called⟩
      refine ⟨passed, ?_⟩
      rw [submitDecodeUnit, called]
    · rintro ⟨cut, error, called⟩
      have same (translator : H264StreamVideoTranslator) (slice : List UInt8) :
          H264StreamVideoTranslator.description.described (assigned translator slice).fields =
              H264StreamVideoTranslator.description.described translator.fields ∧
            (assigned translator slice).decoderConfig.isSome = translator.decoderConfig.isSome :=
        ⟨rfl, rfl⟩
      obtain ⟨described, config⟩ := Translator.leftBy_describes
        H264StreamVideoTranslator.describes same decodeUnit.data decodeUnit.data.length
        ⟨translator, 0, 0, 0, []⟩
      refine ⟨by simpa [refuses] using cut, .h264 _, by rw [submitDecodeUnit, called], described, ?_⟩
      exact config.trans known
    · rintro ⟨whole, next, configure, chunk, called, exact, described, config⟩
      refine ⟨by simpa [refuses] using whole, .h264 next, configure, chunk, ?_, exact, described,
        config⟩
      rw [submitDecodeUnit, called]
  | h265 translator =>
    refine (Translator.submitDecodeUnit_cases H265StreamVideoTranslator.lawful
      H265StreamVideoTranslator.describes decodeUnit known).imp ?_ (And.imp_right (Or.imp ?_ ?_))
    · rintro ⟨passed, called⟩
      refine ⟨passed, ?_⟩
      rw [submitDecodeUnit, called]
    · rintro ⟨cut, _⟩
      obtain ⟨slice, -, refused⟩ := cut
      exact refused.elim
    · rintro ⟨_, next, configure, chunk, called, exact, described, config⟩
      refine ⟨rfl, .h265 next, configure, chunk, ?_, exact, described, config⟩
      rw [submitDecodeUnit, called]

end StreamTranslator

namespace Setup

-- The codec with its parameter sets in band is still being tried.
def InBand : Setup → Prop
  | .idle => True
  | .trying _ outOfBand _ => outOfBand = false
  | .tried _ outOfBand => outOfBand = false
  | .ended => False

-- No configuration was found yet.
def Asking : Setup → Prop
  | .idle => True
  | .trying _ _ _ => True
  | .tried _ _ => False
  | .ended => False

end Setup

namespace VideoDecoderPipe

-- A unit that is decoded behind a translator is a key frame if it completes the parameter sets,
-- and otherwise there is a description.
def Keyed (pipe : VideoDecoderPipe) (content : VideoDecodeUnit) : Prop :=
  match pipe.translator with
  | none => True
  | some translator =>
      (content.key || translator.hasDescription) → translator.refuses content.data = false →
        if translator.completes content.data then content.key else translator.hasDescription

-- Directly a key frame is awaited while the decoder requires one; behind a translator the decoder
-- is configured, and has its key frame, once there is a description.
structure Sound (seen : List Call) (pipe : VideoDecoderPipe) : Prop where
  status : status seen = pipe.decoder
  awaited : pipe.translator = none → pipe.decoder = .configured true → pipe.needsKeyFrame = true
  fresh : pipe.translator = none → pipe.config = none → pipe.decoder = .unconfigured
  ready : pipe.translator = none → pipe.decoderSetupFinished = true →
    pipe.config ≠ none ∧ pipe.decoder ≠ .unconfigured
  known : ∀ translator ∈ pipe.translator, translator.decoderConfig.isSome
  described : ∀ translator ∈ pipe.translator,
    pipe.decoder = if translator.hasDescription then .configured false else .unconfigured
  inBand : pipe.setup.InBand → pipe.translator = none
  asking : pipe.setup.Asking → pipe.config = none
  finished : pipe.decoderSetupFinished = true → pipe.setup = .ended

theorem status_append (seen calls : List Call) :
    WebCodecs.status (seen ++ calls) = calls.foldl CodecState.after (WebCodecs.status seen) :=
  List.foldl_append

variable {seen : List Call} {pipe : VideoDecoderPipe}

theorem Sound.process_iff (sound : Sound seen pipe) (decodeUnit : DecodeUnit)
    (finished : pipe.decoderSetupFinished = true) :
    EmissionsAfter Permitted seen (pipe.process decodeUnit).2 ↔ pipe.Keyed decodeUnit.content := by
  cases behind : pipe.translator with
  | none =>
    obtain ⟨config, configured⟩ := sound.ready behind finished
    have awaited := sound.awaited behind
    simp only [process, Keyed, behind, iff_true]
    split_ifs with skipped
    · trivial
    · refine ⟨?_, trivial⟩
      simp only [Permitted, sound.status]
      cases state : pipe.decoder with
      | unconfigured => exact absurd state configured
      | configured keyRequired =>
        cases keyRequired with
        | false => simp [CodecState.takes]
        | true =>
          have needed := awaited state
          simpa [CodecState.takes, needed, DecodeUnit.chunk] using skipped
  | some translator =>
    have state := sound.described translator behind
    have known := sound.known translator behind
    rcases translator.submitDecodeUnit_cases decodeUnit.content known with
      ⟨passed, called⟩ | ⟨processed, ⟨refused, left, called, -⟩ |
        ⟨whole, next, configure, chunk, called, exact, -⟩⟩
    · simp only [process, Keyed, behind, called]
      exact iff_of_true trivial fun processed => absurd processed passed
    · simp only [process, Keyed, behind, called]
      refine iff_of_true trivial fun _ whole => ?_
      rw [refused] at whole
      simp at whole
    · cases configure with
      | none =>
        have incomplete : translator.completes decodeUnit.content.data = false := exact.symm
        simp only [process, Keyed, behind, called, incomplete, processed, whole, decode, call,
          EmissionsAfter, Permitted, sound.status, state]
        cases translator.hasDescription with
        | false => simp [CodecState.takes]
        | true => simp [CodecState.takes]
      | some config =>
        have complete : translator.completes decodeUnit.content.data = true := exact.symm
        have required : (WebCodecs.status (seen ++ [WebCodecs.Call.reset, .configure config])) =
            .configured true := by rw [status_append]; rfl
        simp [process, Keyed, behind, called, complete, whole, decode, call, EmissionsAfter,
          Permitted, required, CodecState.takes, DecodeUnit.chunk]
        exact .inl (by simpa using processed)

theorem process_finished (pipe : VideoDecoderPipe) (decodeUnit : DecodeUnit) :
    (pipe.process decodeUnit).1.1.decoderSetupFinished = pipe.decoderSetupFinished := by
  unfold process
  split
  · split
    · rfl
    · dsimp only
      split <;> rfl
  · split_ifs
    · rfl
    · rfl

theorem Sound.of_direct (status : WebCodecs.status seen = pipe.decoder)
    (direct : pipe.translator = none) (configured : pipe.decoder ≠ .unconfigured)
    (config : pipe.config ≠ none)
    (awaited : pipe.decoder = .configured true → pipe.needsKeyFrame = true)
    (asking : ¬pipe.setup.Asking)
    (finished : pipe.decoderSetupFinished = true → pipe.setup = .ended) : Sound seen pipe where
  status := status
  awaited _ := awaited
  fresh _ absent := absurd absent config
  ready _ _ := ⟨config, configured⟩
  known translator behind := by simp [direct] at behind
  described translator behind := by simp [direct] at behind
  inBand _ := direct
  asking still := absurd still asking
  finished := finished

theorem Sound.of_translator {translator : StreamTranslator}
    (status : WebCodecs.status seen = pipe.decoder) (behind : pipe.translator = some translator)
    (known : translator.decoderConfig.isSome)
    (described : pipe.decoder =
      if translator.hasDescription then .configured false else .unconfigured)
    (inBand : ¬pipe.setup.InBand) (asking : pipe.setup.Asking → pipe.config = none)
    (finished : pipe.decoderSetupFinished = true → pipe.setup = .ended) : Sound seen pipe where
  status := status
  awaited direct := by simp [behind] at direct
  fresh direct := by simp [behind] at direct
  ready direct := by simp [behind] at direct
  known other same := by
    rw [behind, Option.mem_some_iff] at same
    rwa [← same]
  described other same := by
    rw [behind, Option.mem_some_iff] at same
    rwa [← same]
  inBand still := absurd still inBand
  asking := asking
  finished := finished

theorem Sound.process (sound : Sound seen pipe) (decodeUnit : DecodeUnit)
    (finished : pipe.decoderSetupFinished = true) (keyed : pipe.Keyed decodeUnit.content) :
    Sound (seen ++ (pipe.process decodeUnit).2) (pipe.process decodeUnit).1.1 := by
  have ended := sound.finished finished
  have status := sound.status
  have inBand : ¬pipe.setup.InBand := by
    rw [ended]
    exact id
  have asking : ¬pipe.setup.Asking := by
    rw [ended]
    exact id
  cases behind : pipe.translator with
  | none =>
    obtain ⟨config, configured⟩ := sound.ready behind finished
    simp only [VideoDecoderPipe.process, behind]
    split_ifs with skipped
    · simpa using sound
    · have taken : pipe.decoder.after (.decode (decodeUnit.chunk decodeUnit.content.data)) =
          .configured false := by
        have awaited := sound.awaited behind
        cases state : pipe.decoder with
        | unconfigured => exact absurd state configured
        | configured keyRequired =>
          cases keyRequired with
          | false => simp [CodecState.after, CodecState.takes]
          | true =>
            have key : decodeUnit.content.key = true := by simpa [awaited state] using skipped
            simp [CodecState.after, CodecState.takes, DecodeUnit.chunk, key]
      refine .of_direct ?_ rfl ?_ config ?_ asking fun _ => ended
      · rw [status_append, status]
        rfl
      · simp [decode, call, taken]
      · simp [decode, call, taken]
  | some translator =>
    have state := sound.described translator behind
    have known := sound.known translator behind
    rcases translator.submitDecodeUnit_cases decodeUnit.content known with
      ⟨passed, called⟩ | ⟨processed, ⟨refused, left, called, same, config⟩ |
        ⟨whole, next, configure, chunk, called, exact, described, config⟩⟩
    · simp only [VideoDecoderPipe.process, behind, called, List.append_nil]
      exact .of_translator status rfl known state inBand (absurd · asking) fun _ => ended
    · simp only [VideoDecoderPipe.process, behind, called, List.append_nil]
      exact .of_translator status rfl config (by rw [same]; exact state) inBand (absurd · asking) fun _ => ended
    · simp only [Keyed, behind] at keyed
      have met := keyed processed whole
      cases configure with
      | none =>
        have incomplete : translator.completes decodeUnit.content.data = false := exact.symm
        rw [incomplete, if_neg Bool.false_ne_true] at met
        rw [incomplete, met] at described
        rw [met, if_pos rfl] at state
        simp only [VideoDecoderPipe.process, behind, called]
        refine .of_translator ?_ rfl config ?_ inBand (absurd · asking) fun _ => ended
        · rw [status_append, status]
          rfl
        · rw [described]
          simp [decode, call, state, CodecState.after, CodecState.takes]
      | some config' =>
        have complete : translator.completes decodeUnit.content.data = true := exact.symm
        rw [complete, if_pos rfl] at met
        rw [complete, Bool.or_true] at described
        simp only [VideoDecoderPipe.process, behind, called]
        refine .of_translator ?_ rfl config ?_ inBand (absurd · asking) fun _ => ended
        · rw [status_append, status]
          rfl
        · rw [described]
          simp [decode, call, CodecState.after, CodecState.takes, DecodeUnit.chunk, met]

theorem Sound.new : Sound [] .new where
  status := rfl
  awaited _ absurd_ := by simp [VideoDecoderPipe.new] at absurd_
  fresh _ _ := rfl
  ready _ finished := by simp [VideoDecoderPipe.new] at finished
  known _ behind := by simp [VideoDecoderPipe.new] at behind
  described _ behind := by simp [VideoDecoderPipe.new] at behind
  inBand _ := rfl
  asking _ := rfl
  finished finished := by simp [VideoDecoderPipe.new] at finished

theorem setBaseConfig_same (config : VideoDecoderConfig) (translator : StreamTranslator) :
    (translator.setBaseConfig config).decoderConfig.isSome ∧
      (translator.setBaseConfig config).hasDescription = translator.hasDescription := by
  cases translator with
  | h264 translator => exact ⟨rfl, rfl⟩
  | h265 translator => exact ⟨rfl, rfl⟩

theorem Sound.behind_inBand (sound : Sound seen pipe) {translator : StreamTranslator}
    (behind : pipe.translator = some translator) : ¬pipe.setup.InBand := by
  intro still
  have direct := sound.inBand still
  rw [behind] at direct
  simp at direct

theorem Sound.not_asking (sound : Sound seen pipe) {config : VideoDecoderConfig}
    (found : pipe.config = some config) : ¬pipe.setup.Asking := by
  intro still
  have absent := sound.asking still
  rw [found] at absent
  simp at absent

theorem Sound.reset (sound : Sound seen pipe) : Sound (seen ++ pipe.reset.2) pipe.reset.1 := by
  cases behind : pipe.translator with
  | none =>
    cases config : pipe.config with
    | none =>
      simp only [VideoDecoderPipe.reset, behind, config]
      constructor
      case status =>
        rw [status_append]
        rfl
      case awaited => exact fun _ _ => rfl
      case fresh => exact fun _ _ => rfl
      case ready => exact fun _ finished => absurd config (sound.ready behind finished).1
      case known => exact fun translator some_ => by simp [call] at some_
      case described => exact fun translator some_ => by simp [call] at some_
      case inBand => exact fun _ => rfl
      case asking => exact fun _ => rfl
      case finished => exact sound.finished
    | some found =>
      simp only [VideoDecoderPipe.reset, behind, config]
      refine .of_direct ?_ rfl ?_ ?_ (fun _ => rfl)
        (sound.not_asking config) sound.finished
      · rw [status_append]
        rfl
      · simp [call, CodecState.after]
      · simp [call]
  | some translator =>
    have inBand := sound.behind_inBand behind
    cases config : pipe.config with
    | none =>
      simp only [VideoDecoderPipe.reset, behind, config, List.append_nil]
      exact sound
    | some found =>
      obtain ⟨known, same⟩ := setBaseConfig_same found translator
      simp only [VideoDecoderPipe.reset, behind, config, List.append_nil]
      refine .of_translator sound.status rfl known ?_ inBand
        (absurd · (sound.not_asking config)) sound.finished
      rw [same]
      exact sound.described translator behind

theorem Sound.beginSetup (sound : Sound seen pipe) (codec : Codec) (fps : Nat) :
    Sound seen (pipe.beginSetup codec fps) := by
  unfold VideoDecoderPipe.beginSetup
  split_ifs with idle
  · have direct := sound.inBand (by rw [idle]; trivial)
    have unset := sound.asking (by rw [idle]; trivial)
    refine ⟨sound.status, sound.awaited, sound.fresh, sound.ready, sound.known, sound.described,
      fun _ => direct, fun _ => unset, fun finished => ?_⟩
    have ended := sound.finished finished
    rw [idle] at ended
    simp at ended
  · exact sound

theorem Sound.answer (sound : Sound seen pipe) (supported : Bool) :
    Sound seen (pipe.answer supported) := by
  unfold VideoDecoderPipe.answer
  cases waiting : pipe.setup with
  | trying codec outOfBand attempts =>
    have unset := sound.asking (by rw [waiting]; trivial)
    have fresh (direct : pipe.translator = none) := sound.fresh direct unset
    have unfinished : pipe.decoderSetupFinished ≠ true := by
      intro finished
      have ended := sound.finished finished
      rw [waiting] at ended
      simp at ended
    have inBand (still : outOfBand = false) : pipe.translator = none :=
      sound.inBand (by rw [waiting]; exact still)
    cases supported with
    | true =>
      exact ⟨sound.status, sound.awaited, fun direct _ => fresh direct,
        fun _ finished => absurd finished unfinished, sound.known, sound.described, inBand,
        False.elim, fun finished => absurd finished unfinished⟩
    | false =>
      refine ⟨sound.status, sound.awaited, fun direct _ => fresh direct,
        fun _ finished => absurd finished unfinished, sound.known, sound.described, ?_, fun _ => rfl,
        fun finished => absurd finished unfinished⟩
      intro inside
      simp only [Bool.false_eq_true, if_false] at inside
      by_cases last : attempts ≤ 1
      · rw [if_pos last] at inside
        exact inBand inside
      · rw [if_neg last] at inside
        exact inBand inside
  | idle => exact sound
  | tried codec outOfBand => exact sound
  | ended => exact sound

theorem Sound.finishSetup (sound : Sound seen pipe) {config : VideoDecoderConfig}
    (found : pipe.config = some config) :
    Sound (seen ++ (pipe.finishSetup config).2) (pipe.finishSetup config).1 := by
  cases behind : pipe.translator with
  | none =>
    simp only [VideoDecoderPipe.finishSetup, behind, Option.map_none, VideoDecoderPipe.reset, found]
    refine .of_direct ?_ rfl ?_ ?_ (fun _ => rfl) id fun _ => rfl
    · rw [status_append]
      rfl
    · simp [call, CodecState.after]
    · simp [call]
  | some translator =>
    obtain ⟨-, same⟩ := setBaseConfig_same config translator
    obtain ⟨known, again⟩ := setBaseConfig_same config (translator.setBaseConfig config)
    simp only [VideoDecoderPipe.finishSetup, behind, Option.map_some, VideoDecoderPipe.reset, found,
      List.append_nil]
    refine .of_translator sound.status rfl known ?_ id False.elim fun _ => rfl
    rw [again, same]
    exact sound.described translator behind

theorem streamTranslator_new {codec : Codec} {translator : StreamTranslator}
    (found : codec.streamTranslator = some translator) :
    translator.decoderConfig.isSome ∧ translator.hasDescription = false := by
  cases codec <;> cases found <;> exact ⟨rfl, rfl⟩

theorem Sound.resume (sound : Sound seen pipe) : Sound (seen ++ pipe.resume.2) pipe.resume.1 := by
  unfold VideoDecoderPipe.resume
  cases waiting : pipe.setup with
  | tried codec outOfBand =>
    have unfinished : pipe.decoderSetupFinished ≠ true := by
      intro finished
      have ended := sound.finished finished
      rw [waiting] at ended
      simp at ended
    cases config : pipe.config with
    | some found =>
      have finish := sound.finishSetup config
      simpa only using finish
    | none =>
      cases chosen : if outOfBand then none else codec.streamTranslator with
      | none =>
        simp only [chosen, List.append_nil]
        refine ⟨sound.status, sound.awaited, fun direct _ => sound.fresh direct config,
          fun _ finished => absurd finished unfinished, sound.known, sound.described, False.elim,
          False.elim, fun _ => rfl⟩
      | some translator =>
        simp only [chosen, List.append_nil]
        split_ifs at chosen with outside
        obtain ⟨known, blank⟩ := streamTranslator_new chosen
        have direct := sound.inBand (by rw [waiting]; simpa [Setup.InBand] using outside)
        refine .of_translator sound.status rfl known ?_ (by simp [Setup.InBand]) (fun _ => rfl)
          fun finished => absurd finished unfinished
        rw [blank]
        exact sound.fresh direct config
  | idle => simpa using sound
  | trying codec outOfBand attempts => simpa using sound
  | ended => simpa using sound

theorem Sound.pollRequestIdr (sound : Sound seen pipe) (decodeQueueSize : Nat) (base : Bool) :
    Sound (seen ++ (pipe.pollRequestIdr decodeQueueSize base).2)
      (pipe.pollRequestIdr decodeQueueSize base).1.1 := by
  have kept (pipe : VideoDecoderPipe) (seen : List Call) (sound : Sound seen pipe) (flag : Bool) :
      Sound seen { pipe with requestedIdr := flag } :=
    ⟨sound.status, sound.awaited, sound.fresh, sound.ready, sound.known, sound.described,
      sound.inBand, sound.asking, sound.finished⟩
  simp only [VideoDecoderPipe.pollRequestIdr]
  split_ifs with flushed
  · exact kept _ _ sound.reset _
  · rw [List.append_nil]
    exact kept _ _ sound _

section Submitting

-- The pipe that a unit finds, and whether a call before it has thrown.
def Ready (seen : List Call) (state : VideoDecoderPipe × Bool) : Prop :=
  Sound seen state.1 ∧ state.1.decoderSetupFinished = true

def KeyedAgain (_ : List Call) (state : VideoDecoderPipe × Bool) (decodeUnit : DecodeUnit) : Prop :=
  state.2 = false → state.1.errored = false → state.1.Keyed decodeUnit.content

theorem Ready.again {state : VideoDecoderPipe × Bool} (ready : Ready seen state)
    (decodeUnit : DecodeUnit) (keyed : KeyedAgain seen state decodeUnit) :
    Ready (seen ++ (unlessThrown again state decodeUnit).2) (unlessThrown again state decodeUnit).1 := by
  obtain ⟨pipe, threw⟩ := state
  unfold unlessThrown VideoDecoderPipe.again
  split_ifs with thrown errored
  · simpa using ready
  · simpa [Ready] using ready
  · have met := keyed (by simpa using thrown) (by simpa using errored)
    exact ⟨ready.1.process decodeUnit ready.2 met, (process_finished pipe decodeUnit).trans ready.2⟩

theorem Ready.again_iff {state : VideoDecoderPipe × Bool} (ready : Ready seen state)
    (decodeUnit : DecodeUnit) :
    EmissionsAfter Permitted seen (unlessThrown VideoDecoderPipe.again state decodeUnit).2 ↔
      KeyedAgain seen state decodeUnit := by
  obtain ⟨pipe, threw⟩ := state
  unfold unlessThrown VideoDecoderPipe.again
  split_ifs with thrown errored
  · exact iff_of_true trivial fun quiet => absurd thrown (by simpa using quiet)
  · exact iff_of_true trivial fun _ quiet => absurd errored (by simpa using quiet)
  · rw [ready.1.process_iff decodeUnit ready.2]
    exact ⟨fun met _ _ => met, fun keyed => keyed (by simpa using thrown) (by simpa using errored)⟩

-- The buffered units and then the unit, in the states in which they are processed.
def Orderly (seen : List Call) (pipe : VideoDecoderPipe) (content : VideoDecodeUnit) : Prop :=
  pipe.errored = false → pipe.decoderSetupFinished = true →
    Along (unlessThrown again) KeyedAgain seen ({ pipe with bufferedUnits := [] }, false)
      pipe.bufferedUnits ∧
    (pipe.replay.1.2 = false → pipe.replay.1.1.Keyed content)

theorem Sound.buffered (sound : Sound seen pipe) (decodeUnits : List DecodeUnit) :
    Sound seen { pipe with bufferedUnits := decodeUnits } :=
  ⟨sound.status, sound.awaited, sound.fresh, sound.ready, sound.known, sound.described,
    sound.inBand, sound.asking, sound.finished⟩

theorem Ready.replayed (ready : Ready seen ({ pipe with bufferedUnits := [] }, false))
    (orderly : Along (unlessThrown VideoDecoderPipe.again) KeyedAgain seen
      ({ pipe with bufferedUnits := [] }, false) pipe.bufferedUnits) :
    Ready (seen ++ pipe.replay.2) pipe.replay.1 :=
  Runs.run_invariant (unlessThrown VideoDecoderPipe.again) KeyedAgain Ready
    (fun _ _ decodeUnit ready keyed => ready.again decodeUnit keyed) seen _ pipe.bufferedUnits ready
    orderly

theorem Ready.process_iff {state : VideoDecoderPipe × Bool} (ready : Ready seen state)
    (decodeUnit : DecodeUnit) :
    EmissionsAfter Permitted seen (unlessThrown VideoDecoderPipe.process state decodeUnit).2 ↔
      (state.2 = false → state.1.Keyed decodeUnit.content) := by
  obtain ⟨pipe, threw⟩ := state
  unfold unlessThrown
  split_ifs with thrown
  · exact iff_of_true trivial fun quiet => absurd thrown (by simpa using quiet)
  · rw [ready.1.process_iff decodeUnit ready.2]
    exact ⟨fun met _ => met, fun keyed => keyed (by simpa using thrown)⟩

theorem submitDecodeUnit_calls (pipe : VideoDecoderPipe) (decodeUnit : DecodeUnit)
    (running : pipe.errored = false) (finished : pipe.decoderSetupFinished = true) :
    pipe.submitDecodeUnit decodeUnit =
      ((unlessThrown process pipe.replay.1 decodeUnit).1.1,
        pipe.replay.2 ++ (unlessThrown process pipe.replay.1 decodeUnit).2) := by
  simp [submitDecodeUnit, running, finished, Runs.andThen]

theorem Sound.submit_iff (sound : Sound seen pipe) (decodeUnit : DecodeUnit) :
    EmissionsAfter Permitted seen (pipe.submitDecodeUnit decodeUnit).2 ↔
      Orderly seen pipe decodeUnit.content := by
  by_cases running : pipe.errored = false
  swap
  · refine iff_of_true ?_ fun quiet => absurd quiet running
    rw [submitDecodeUnit, if_pos (by simpa using running)]
    trivial
  by_cases finished : pipe.decoderSetupFinished = true
  swap
  · refine iff_of_true ?_ fun _ done => absurd done finished
    rw [submitDecodeUnit, if_neg (by simp [running]), if_pos (by simpa using finished)]
    trivial
  have ready : Ready seen ({ pipe with bufferedUnits := [] }, false) :=
    ⟨sound.buffered [], finished⟩
  have replayed : EmissionsAfter Permitted seen pipe.replay.2 ↔ _ :=
    Runs.emissions_run_iff_guarded (unlessThrown VideoDecoderPipe.again) Ready
      (fun _ _ decodeUnit ready keyed => ready.again decodeUnit keyed)
      (fun _ _ decodeUnit ready => ready.again_iff decodeUnit) pipe.bufferedUnits ready
  rw [submitDecodeUnit_calls pipe decodeUnit running finished, Runs.emissionsAfter_append,
    replayed, Orderly, imp_iff_right running, imp_iff_right finished]
  exact and_congr_right fun orderly => (ready.replayed orderly).process_iff decodeUnit

theorem Sound.submit (sound : Sound seen pipe) (decodeUnit : DecodeUnit)
    (orderly : Orderly seen pipe decodeUnit.content) :
    Sound (seen ++ (pipe.submitDecodeUnit decodeUnit).2) (pipe.submitDecodeUnit decodeUnit).1 := by
  by_cases running : pipe.errored = false
  swap
  · rw [submitDecodeUnit, if_pos (by simpa using running), List.append_nil]
    exact sound
  by_cases finished : pipe.decoderSetupFinished = true
  swap
  · rw [submitDecodeUnit, if_neg (by simp [running]), if_pos (by simpa using finished),
      List.append_nil]
    exact sound.buffered _
  obtain ⟨within, last⟩ := orderly running finished
  have ready := Ready.replayed ⟨sound.buffered [], finished⟩ within
  rw [submitDecodeUnit_calls pipe decodeUnit running finished, ← List.append_assoc]
  unfold unlessThrown
  split_ifs with thrown
  · simpa using ready.1
  · exact ready.1.process decodeUnit ready.2 (last (by simpa using thrown))

end Submitting

section Order

-- The numbers of the units that were decoded.
def decoded (calls : List Call) : List Nat :=
  calls.filterMap fun
    | .decode chunk => some chunk.number
    | _ => none

theorem decoded_append (first second : List Call) :
    decoded (first ++ second) = decoded first ++ decoded second :=
  List.filterMap_append

-- What is no `decode` is always permitted.
theorem permitted_of_decoded {calls : List Call} (none : decoded calls = []) (seen : List Call) :
    EmissionsAfter Permitted seen calls := by
  refine Runs.emissionsAfter_of_forall (fun seen call member => ?_) seen
  cases call with
  | reset => trivial
  | configure config => trivial
  | decode chunk =>
    have found : chunk.number ∈ decoded calls := List.mem_filterMap.mpr ⟨_, member, rfl⟩
    rw [none] at found
    simp at found

-- At most the units are decoded, in this order, and nothing is buffered.
def Consumes (decodeUnits : List DecodeUnit) (state : VideoDecoderPipe × Bool)
    (after : (VideoDecoderPipe × Bool) × List Call) : Prop :=
  (decoded after.2).Sublist (decodeUnits.map (·.number)) ∧
    after.1.1.bufferedUnits = state.1.bufferedUnits

theorem process_consumes (pipe : VideoDecoderPipe) (threw : Bool) (decodeUnit : DecodeUnit) :
    Consumes [decodeUnit] (pipe, threw) (pipe.process decodeUnit) := by
  unfold process
  split
  · split
    · exact ⟨List.nil_sublist _, rfl⟩
    · dsimp only
      split
      · exact ⟨List.nil_sublist _, rfl⟩
      · exact ⟨List.nil_sublist _, rfl⟩
      · exact ⟨List.Sublist.refl _, rfl⟩
      · exact ⟨List.Sublist.refl _, rfl⟩
  · split_ifs
    · exact ⟨List.nil_sublist _, rfl⟩
    · exact ⟨List.Sublist.refl _, rfl⟩

theorem unlessThrown_consumes
    {next : VideoDecoderPipe → DecodeUnit → (VideoDecoderPipe × Bool) × List Call}
    (consumes : ∀ pipe threw decodeUnit, Consumes [decodeUnit] (pipe, threw) (next pipe decodeUnit))
    (state : VideoDecoderPipe × Bool) (decodeUnit : DecodeUnit) :
    Consumes [decodeUnit] state (unlessThrown next state decodeUnit) := by
  unfold unlessThrown
  split_ifs with thrown
  · exact ⟨List.nil_sublist _, rfl⟩
  · exact consumes state.1 state.2 decodeUnit

theorem again_consumes (pipe : VideoDecoderPipe) (threw : Bool) (decodeUnit : DecodeUnit) :
    Consumes [decodeUnit] (pipe, threw) (pipe.again decodeUnit) := by
  unfold again
  split_ifs
  · exact ⟨List.nil_sublist _, rfl⟩
  · exact process_consumes pipe threw decodeUnit

theorem run_consumes (state : VideoDecoderPipe × Bool) (decodeUnits : List DecodeUnit) :
    Consumes decodeUnits state (Runs.run (unlessThrown again) state decodeUnits) := by
  induction decodeUnits generalizing state with
  | nil => exact ⟨List.Sublist.refl _, rfl⟩
  | cons decodeUnit rest ih =>
    obtain ⟨first, kept⟩ := unlessThrown_consumes again_consumes state decodeUnit
    obtain ⟨later, last⟩ := ih (unlessThrown again state decodeUnit).1
    refine ⟨?_, last.trans kept⟩
    rw [Runs.run, decoded_append]
    exact first.append later

theorem submit_consumes (pipe : VideoDecoderPipe) (decodeUnit : DecodeUnit) :
    (decoded (pipe.submitDecodeUnit decodeUnit).2 ++
        (pipe.submitDecodeUnit decodeUnit).1.bufferedUnits.map (·.number)).Sublist
      (pipe.bufferedUnits.map (·.number) ++ [decodeUnit.number]) := by
  by_cases running : pipe.errored = false
  swap
  · rw [submitDecodeUnit, if_pos (by simpa using running)]
    exact List.sublist_append_left _ _
  by_cases finished : pipe.decoderSetupFinished = true
  swap
  · rw [submitDecodeUnit, if_neg (by simp [running]), if_pos (by simpa using finished)]
    simp [decoded]
  obtain ⟨first, empty⟩ := run_consumes ({ pipe with bufferedUnits := [] }, false) pipe.bufferedUnits
  obtain ⟨last, still⟩ := unlessThrown_consumes process_consumes pipe.replay.1 decodeUnit
  rw [submitDecodeUnit_calls pipe decodeUnit running finished, decoded_append]
  have none : (unlessThrown process pipe.replay.1 decodeUnit).1.1.bufferedUnits = [] :=
    still.trans empty
  rw [none, List.map_nil, List.append_nil]
  exact first.append last

theorem beginSetup_buffered (pipe : VideoDecoderPipe) (codec : Codec) (fps : Nat) :
    (pipe.beginSetup codec fps).bufferedUnits = pipe.bufferedUnits := by
  unfold beginSetup
  split_ifs
  · rfl
  · rfl

theorem answer_buffered (pipe : VideoDecoderPipe) (supported : Bool) :
    (pipe.answer supported).bufferedUnits = pipe.bufferedUnits := by
  unfold answer
  split
  · cases supported with
    | true => rfl
    | false => rfl
  · rfl

theorem reset_buffered (pipe : VideoDecoderPipe) :
    pipe.reset.1.bufferedUnits = pipe.bufferedUnits := by
  unfold reset
  split
  · rfl
  · split
    · rfl
    · rfl

theorem resume_buffered (pipe : VideoDecoderPipe) :
    pipe.resume.1.bufferedUnits = pipe.bufferedUnits := by
  unfold resume
  split
  · split
    · exact reset_buffered _
    · split
      · rfl
      · rfl
  · rfl

theorem pollRequestIdr_buffered (pipe : VideoDecoderPipe) (decodeQueueSize : Nat) (base : Bool) :
    (pipe.pollRequestIdr decodeQueueSize base).1.1.bufferedUnits = pipe.bufferedUnits := by
  simp only [pollRequestIdr]
  split_ifs
  · exact reset_buffered pipe
  · rfl

theorem decoded_reset (pipe : VideoDecoderPipe) : decoded pipe.reset.2 = [] := by
  unfold reset
  split
  · cases pipe.config with
    | none => rfl
    | some config => rfl
  · split
    · rfl
    · rfl

theorem decoded_resume (pipe : VideoDecoderPipe) : decoded pipe.resume.2 = [] := by
  unfold resume
  split
  · split
    · exact decoded_reset _
    · split
      · rfl
      · rfl
  · rfl

theorem decoded_pollRequestIdr (pipe : VideoDecoderPipe) (decodeQueueSize : Nat) (base : Bool) :
    decoded (pipe.pollRequestIdr decodeQueueSize base).2 = [] := by
  simp only [pollRequestIdr]
  split_ifs
  · exact decoded_reset pipe
  · rfl

end Order

end VideoDecoderPipe

namespace Session

open VideoDecoderPipe (Sound decoded Orderly)

-- Every unit is a key frame where it has to be.
def OrderlyStep (seen : List Call) (session : Session) : Event → Prop
  | .submit content _ _ => Orderly seen session.pipe content
  | _ => True

theorem step_iff {seen : List Call} {session : Session} (sound : Sound seen session.pipe)
    (event : Event) :
    EmissionsAfter Permitted seen (session.step event).2 ↔ session.OrderlyStep seen event := by
  cases event with
  | setup codec fps => exact Iff.rfl
  | answer supported => exact Iff.rfl
  | resume =>
    exact iff_of_true (VideoDecoderPipe.permitted_of_decoded
      (VideoDecoderPipe.decoded_resume session.pipe) seen) trivial
  | submit content timestamp duration => exact sound.submit_iff _
  | pollRequestIdr decodeQueueSize base =>
    exact iff_of_true (VideoDecoderPipe.permitted_of_decoded
      (VideoDecoderPipe.decoded_pollRequestIdr session.pipe decodeQueueSize base) seen) trivial
  | error => exact Iff.rfl

theorem step_sound {seen : List Call} {session : Session} (event : Event)
    (sound : Sound seen session.pipe) (orderly : session.OrderlyStep seen event) :
    Sound (seen ++ (session.step event).2) (session.step event).1.pipe := by
  cases event with
  | setup codec fps =>
    rw [show (session.step (.setup codec fps)).2 = [] from rfl, List.append_nil]
    exact sound.beginSetup codec fps
  | answer supported =>
    rw [show (session.step (.answer supported)).2 = [] from rfl, List.append_nil]
    exact sound.answer supported
  | resume => exact sound.resume
  | submit content timestamp duration => exact sound.submit _ orderly
  | pollRequestIdr decodeQueueSize base => exact sound.pollRequestIdr decodeQueueSize base
  | error =>
    rw [show (session.step .error).2 = [] from rfl, List.append_nil]
    exact ⟨sound.status, sound.awaited, sound.fresh, sound.ready, sound.known, sound.described,
      sound.inBand, sound.asking, sound.finished⟩

-- What was decoded and what is buffered, in the order of the calls.
def InOrder (seen : List Call) (session : Session) : Prop :=
  (decoded seen ++ session.pipe.bufferedUnits.map (·.number)).Sublist
    (List.range session.submitted)

theorem step_inOrder (seen : List Call) (session : Session) (event : Event)
    (inOrder : session.InOrder seen) :
    (session.step event).1.InOrder (seen ++ (session.step event).2) := by
  have quiet (pipe : VideoDecoderPipe) (calls : List Call) (none : decoded calls = [])
      (same : pipe.bufferedUnits = session.pipe.bufferedUnits) :
      InOrder (seen ++ calls) { session with pipe := pipe } := by
    rw [InOrder, VideoDecoderPipe.decoded_append, none, List.append_nil, same]
    exact inOrder
  cases event with
  | setup codec fps =>
    exact quiet _ [] rfl (VideoDecoderPipe.beginSetup_buffered session.pipe codec fps)
  | answer supported =>
    exact quiet _ [] rfl (VideoDecoderPipe.answer_buffered session.pipe supported)
  | resume =>
    exact quiet _ _ (VideoDecoderPipe.decoded_resume session.pipe)
      (VideoDecoderPipe.resume_buffered session.pipe)
  | submit content timestamp duration =>
    have consumed := session.pipe.submit_consumes ⟨session.submitted, content, timestamp, duration⟩
    rw [InOrder, VideoDecoderPipe.decoded_append, List.append_assoc]
    refine ((List.Sublist.refl (decoded seen)).append consumed).trans ?_
    rw [← List.append_assoc]
    exact (inOrder.append (List.Sublist.refl [session.submitted])).trans
      (List.range_succ (n := session.submitted) ▸ List.Sublist.refl _)
  | pollRequestIdr decodeQueueSize base =>
    exact quiet _ _ (VideoDecoderPipe.decoded_pollRequestIdr session.pipe decodeQueueSize base)
      (VideoDecoderPipe.pollRequestIdr_buffered session.pipe decodeQueueSize base)
  | error => exact quiet _ [] rfl rfl

/-- The decoder is only given what it takes exactly if, behind a translator, every unit that is
decoded is a key frame where the parameter sets become complete, and has a description else. Units
are decoded in the order of the calls, each at most once, whatever they are. -/
theorem decoder_disciplined_iff (events : List Event) :
    (Runs.Emissions Permitted (callsOf events) ↔
      Along step (fun seen session event => session.OrderlyStep seen event) [] .new events) ∧
    (decoded (callsOf events)).Pairwise (· < ·) := by
  constructor
  · rw [Runs.emissions_iff_after]
    exact Runs.emissions_run_iff_guarded step (fun seen session => Sound seen session.pipe)
      (fun _ _ event sound orderly => step_sound event sound orderly)
      (fun _ _ event sound => step_iff sound event) events .new
  · have inOrder := Runs.run_invariant_of_forall step (fun seen session => session.InOrder seen)
      step_inOrder [] .new events (List.Sublist.refl _)
    exact List.pairwise_lt_range.sublist ((List.sublist_append_left _ _).trans inOrder)

-- A key frame without parameter sets and a delta frame with both, where the decoder takes only
-- H.264 out of band.
def setupOutOfBand : List Event :=
  [.setup .h264 60, .answer false, .answer false, .answer false, .resume, .answer true, .resume]

/-- The first is decoded before anything is configured, the second behind a configuration. -/
theorem decoder_not_disciplined :
    ¬Runs.Emissions Permitted
      (callsOf (setupOutOfBand ++ [Event.submit ⟨true, [0, 0, 1, 0x65]⟩ 0 0])) ∧
    ¬Runs.Emissions Permitted (callsOf (setupOutOfBand ++
      [Event.submit ⟨true, [0, 0, 1, 0x67, 1, 2, 3, 0, 0, 1, 0x68, 0, 0, 1, 0x65]⟩ 0 0,
        .submit ⟨false, [0, 0, 1, 0x67, 1, 2, 3, 0, 0, 1, 0x68, 0, 0, 1, 0x41]⟩ 1 0])) := by
  rw [Runs.emissions_iff_after, Runs.emissions_iff_after]
  decide +kernel

end Session

end WebCodecs

end BetterParsec
