import BetterParsec.Browser.MediaSource

set_option autoImplicit false
set_option linter.all false

/-!
# Segments reach the SourceBuffer they were made for

The queue of segments outlives its SourceBuffer.  As long as it is empty when a
SourceBuffer is replaced, and no write throws, each SourceBuffer gets the
segments made since it was made, in order.
-/

namespace BetterParsec

namespace Web

-- The segments appended to a SourceBuffer, in order.
def appendedTo (sourceBuffer : Nat) (acts : List MediaAct) : List Segment :=
  acts.filterMap fun
    | .appended other segment => if other = sourceBuffer then some segment else none
    | .generated _ _ => none

-- The segments made while a SourceBuffer was the latest.
def generatedFor (sourceBuffer : Nat) (acts : List MediaAct) : List Segment :=
  acts.filterMap fun
    | .generated latest segment => if latest = sourceBuffer then some segment else none
    | .appended _ _ => none

-- Frames numbered from 1 whose base decode times strictly increase.
structure Numbered (frames : List FrameSegment) : Prop where
  numbers : frames.map (·.sequenceNumber) = (List.range frames.length).map (· + 1)
  times : (frames.map (·.baseDecodeTime)).Pairwise (· < ·)

-- Nothing, or the init segment and then frames in order.
def Ordered (segments : List Segment) : Prop :=
  segments = [] ∨ ∃ width height avcC frames,
    segments = .init width height avcC :: frames.map Segment.frame ∧ Numbered frames

-- What a SourceBuffer was given is the beginning of what was made for it.
structure Disciplined (sourceBuffer : Nat) (acts : List MediaAct) : Prop where
  own : appendedTo sourceBuffer acts <+: generatedFor sourceBuffer acts
  ordered : Ordered (generatedFor sourceBuffer acts)

-- A SourceBuffer is replaced while no segment waits, and once frames are sent no write throws.
def OrderlyValue (supports : List UInt8 → Bool) (d : MediaSourceDecoder) (unit : VideoDecodeUnit) :
    H264StreamVideoTranslator.Value → Prop
  | some (some config, some chunk) =>
    supports config.codec = true → d.buffers = [] ∧
      (d.needIdr = false →
        initFits config.description = true ∧ nalTypeAt chunk 4 = 5 ∧ frameFits unit chunk = true)
  | some (none, some chunk) => d.needIdr = false → frameFits unit chunk = true
  | some (_, none) | none => True

def Orderly (supports : List UInt8 → Bool) (d : MediaSourceDecoder) : MediaEvent → Prop
  | .submit unit =>
    d.errored = false → OrderlyValue supports d unit (d.translator.submitDecodeUnit unit).2
  | .updateEnd _ | .error => True

instance decidableOrderlyValue (supports : List UInt8 → Bool) (d : MediaSourceDecoder)
    (unit : VideoDecodeUnit) (value : H264StreamVideoTranslator.Value) :
    Decidable (OrderlyValue supports d unit value) :=
  match value with
  | some (some _, some _) => inferInstanceAs (Decidable (_ → _ ∧ (_ → _)))
  | some (none, some _) => inferInstanceAs (Decidable (_ → _))
  | some (some _, none) | some (none, none) | none => .isTrue trivial

instance decidableOrderly (supports : List UInt8 → Bool) (d : MediaSourceDecoder)
    (event : MediaEvent) : Decidable (Orderly supports d event) :=
  match event with
  | .submit _ => inferInstanceAs (Decidable (_ → _))
  | .updateEnd _ | .error => .isTrue trivial

section Logs

variable (sourceBuffer : Nat)

@[simp] theorem appendedTo_append (acts more : List MediaAct) :
    appendedTo sourceBuffer (acts ++ more) =
      appendedTo sourceBuffer acts ++ appendedTo sourceBuffer more :=
  List.filterMap_append

@[simp] theorem generatedFor_append (acts more : List MediaAct) :
    generatedFor sourceBuffer (acts ++ more) =
      generatedFor sourceBuffer acts ++ generatedFor sourceBuffer more :=
  List.filterMap_append

@[simp] theorem appendedTo_nil : appendedTo sourceBuffer [] = [] := rfl

@[simp] theorem generatedFor_nil : generatedFor sourceBuffer [] = [] := rfl

variable (other : Nat) (segment : Segment)

@[simp] theorem appendedTo_appended : appendedTo sourceBuffer [.appended other segment] =
    if other = sourceBuffer then [segment] else [] := by
  by_cases same : other = sourceBuffer <;> simp [appendedTo, same]

@[simp] theorem appendedTo_generated : appendedTo sourceBuffer [.generated other segment] = [] :=
  rfl

@[simp] theorem generatedFor_generated : generatedFor sourceBuffer [.generated other segment] =
    if other = sourceBuffer then [segment] else [] := by
  by_cases same : other = sourceBuffer <;> simp [generatedFor, same]

@[simp] theorem generatedFor_appended : generatedFor sourceBuffer [.appended other segment] = [] :=
  rfl

end Logs

theorem Numbered.concat {frames : List FrameSegment} (numbered : Numbered frames)
    {last : FrameSegment} (number : last.sequenceNumber = frames.length + 1)
    (time : ∀ frame ∈ frames, frame.baseDecodeTime < last.baseDecodeTime) :
    Numbered (frames ++ [last]) := by
  constructor
  case numbers =>
    rw [List.length_append, List.length_singleton, List.range_succ, List.map_append,
      List.map_append, numbered.numbers, List.map_singleton, List.map_singleton, number]
  case times =>
    rw [List.map_append, List.pairwise_append]
    refine ⟨numbered.times, List.pairwise_singleton _ _, ?_⟩
    intro earlier member later last
    obtain ⟨frame, among, rfl⟩ := List.mem_map.mp member
    obtain rfl := List.mem_singleton.mp last
    exact time frame among

-- The queue holds what was made for the latest SourceBuffer and not yet appended to it.
structure Queued (acts : List MediaAct) (d : MediaSourceDecoder) : Prop where
  current : ∀ sourceBuffer updating, d.sourceBuffer = some (sourceBuffer, updating) →
    sourceBuffer = d.latest
  earlier : ∀ sourceBuffer, sourceBuffer < d.latest → Disciplined sourceBuffer acts
  later : ∀ sourceBuffer, d.latest < sourceBuffer →
    appendedTo sourceBuffer acts = [] ∧ generatedFor sourceBuffer acts = []
  queue : generatedFor d.latest acts = appendedTo d.latest acts ++ d.buffers

-- No frame before the first key frame, then as many as the sequence number counts.
def Made (d : MediaSourceDecoder) (segments : List Segment) : Prop :=
  if d.needIdr then segments = [] ∨ ∃ width height avcC, segments = [.init width height avcC]
  else ∃ width height avcC frames,
    segments = .init width height avcC :: frames.map Segment.frame ∧ Numbered frames ∧
      d.sequenceNumber = frames.length

structure Held (acts : List MediaAct) (d : MediaSourceDecoder) : Prop where
  queued : Queued acts d
  made : Made d (generatedFor d.latest acts)
  past : ∀ frame, .frame frame ∈ generatedFor d.latest acts →
    frame.baseDecodeTime ≤ d.lastTimestampMicroseconds
  duration : 0 < d.expectedDurationMicroseconds

theorem made_waiting {d : MediaSourceDecoder} (waiting : d.needIdr = true)
    (segments : List Segment) : Made d segments ↔
      segments = [] ∨ ∃ width height avcC, segments = [.init width height avcC] := by
  rw [Made, if_pos waiting]

theorem made_sending {d : MediaSourceDecoder} (sending : d.needIdr = false)
    (segments : List Segment) : Made d segments ↔
      ∃ width height avcC frames,
        segments = .init width height avcC :: frames.map Segment.frame ∧ Numbered frames ∧
          d.sequenceNumber = frames.length := by
  rw [Made, if_neg (by simp [sending])]

theorem Made.ordered {d : MediaSourceDecoder} {segments : List Segment} (made : Made d segments) :
    Ordered segments := by
  rw [Made] at made
  split at made
  next =>
    rcases made with none | ⟨width, height, avcC, one⟩
    · exact .inl none
    · exact .inr ⟨width, height, avcC, [], one, ⟨rfl, List.Pairwise.nil⟩⟩
  next =>
    obtain ⟨width, height, avcC, frames, all, numbered, _⟩ := made
    exact .inr ⟨width, height, avcC, frames, all, numbered⟩

theorem Held.disciplined {acts : List MediaAct} {d : MediaSourceDecoder} (held : Held acts d)
    (sourceBuffer : Nat) : Disciplined sourceBuffer acts := by
  rcases Nat.lt_trichotomy sourceBuffer d.latest with earlier | rfl | later
  · exact held.queued.earlier sourceBuffer earlier
  · exact ⟨⟨d.buffers, held.queued.queue.symm⟩, held.made.ordered⟩
  · obtain ⟨none, noneMade⟩ := held.queued.later sourceBuffer later
    exact ⟨by rw [none]; exact List.nil_prefix, .inl noneMade⟩

section Steps

variable {acts : List MediaAct} {d : MediaSourceDecoder}

-- It speaks of three fields only.
theorem Queued.congr (queued : Queued acts d) {other : MediaSourceDecoder}
    (latest : other.latest = d.latest) (sourceBuffer : other.sourceBuffer = d.sourceBuffer)
    (buffers : other.buffers = d.buffers) : Queued acts other := by
  constructor
  case current => rw [sourceBuffer, latest]; exact queued.current
  case earlier => rw [latest]; exact queued.earlier
  case later => rw [latest]; exact queued.later
  case queue => rw [latest, buffers]; exact queued.queue

theorem Queued.push (queued : Queued acts d) (segment : Segment) :
    Queued (acts ++ (d.push segment).2) (d.push segment).1 := by
  constructor
  case current => exact queued.current
  case earlier =>
    intro sourceBuffer before
    have other : d.latest ≠ sourceBuffer := Nat.ne_of_gt before
    obtain ⟨own, ordered⟩ := queued.earlier sourceBuffer before
    constructor <;> simpa [MediaSourceDecoder.push, other]
  case later =>
    intro sourceBuffer after
    have other : d.latest ≠ sourceBuffer := Nat.ne_of_lt after
    simpa [MediaSourceDecoder.push, other] using queued.later sourceBuffer after
  case queue =>
    simp [MediaSourceDecoder.push, queued.queue]

theorem Queued.tryAppend (queued : Queued acts d) :
    Queued (acts ++ d.tryAppendDecodeUnit.2) d.tryAppendDecodeUnit.1 := by
  rw [MediaSourceDecoder.tryAppendDecodeUnit]
  split
  next => simpa using queued
  next =>
    split
    next sourceBuffer unit rest idle waiting =>
      have latest := queued.current sourceBuffer false idle
      constructor
      case current =>
        intro other updating same
        obtain ⟨rfl, rfl⟩ := Prod.mk.inj (Option.some.inj same)
        exact latest
      case earlier =>
        intro other before
        have different : sourceBuffer ≠ other := by
          rw [latest]
          exact Nat.ne_of_gt before
        obtain ⟨own, ordered⟩ := queued.earlier other before
        constructor <;> simpa [different]
      case later =>
        intro other after
        have different : sourceBuffer ≠ other := by
          rw [latest]
          exact Nat.ne_of_lt after
        simpa [different] using queued.later other after
      case queue =>
        have queue := queued.queue
        rw [waiting] at queue
        simpa [latest] using queue
    next => simpa using queued

-- Appending makes nothing and leaves the rest of the decoder alone.
theorem Held.tryAppend (held : Held acts d) :
    Held (acts ++ d.tryAppendDecodeUnit.2) d.tryAppendDecodeUnit.1 := by
  have queued := held.queued.tryAppend
  rw [MediaSourceDecoder.tryAppendDecodeUnit] at queued ⊢
  split
  next => simpa using held
  next running =>
    rw [if_neg running] at queued
    split
    next sourceBuffer unit rest idle waiting =>
      rw [idle, waiting] at queued
      have same : generatedFor d.latest (acts ++ [MediaAct.appended sourceBuffer unit]) =
          generatedFor d.latest acts := by simp
      exact ⟨queued, same.symm ▸ held.made, same.symm ▸ held.past, held.duration⟩
    next => simpa using held

theorem fixTimestamp_lt (duration : 0 < d.expectedDurationMicroseconds) (timestamp : ℚ) :
    d.lastTimestampMicroseconds < d.fixTimestamp timestamp := by
  rw [MediaSourceDecoder.fixTimestamp]
  split
  next => exact lt_add_of_pos_right _ duration
  next more => exact lt_of_not_ge more

theorem Held.onUpdateEnd (held : Held acts d) (ended : Nat) :
    Held (acts ++ (d.onUpdateEnd ended).2) (d.onUpdateEnd ended).1 := by
  apply Held.tryAppend
  refine ⟨⟨?_, held.queued.earlier, held.queued.later, held.queued.queue⟩, held.made,
    held.past, held.duration⟩
  intro sourceBuffer updating same
  obtain ⟨⟨other, before⟩, there, equal⟩ := Option.map_eq_some_iff.mp same
  rw [← (Prod.mk.inj equal).1]
  exact held.queued.current other before there

-- Time passes without a segment.
theorem Held.later (held : Held acts d) {time : ℚ} (after : d.lastTimestampMicroseconds < time) :
    Held acts { d with lastTimestampMicroseconds := time } :=
  ⟨held.queued.congr rfl rfl rfl, held.made,
    fun frame member => le_of_lt (lt_of_le_of_lt (held.past frame member) after), held.duration⟩

theorem Held.nextSegment (held : Held acts d) (unit : VideoDecodeUnit) (chunk : List UInt8)
    (durationMicroseconds : ℚ)
    (newer : ∀ frame, .frame frame ∈ generatedFor d.latest acts →
      frame.baseDecodeTime < d.lastTimestampMicroseconds)
    (fits : d.needIdr = false → frameFits unit chunk = true) :
    Held (acts ++ (d.nextSegment unit chunk durationMicroseconds).2)
      (d.nextSegment unit chunk durationMicroseconds).1 := by
  by_cases waiting : d.needIdr = true
  · rw [MediaSourceDecoder.nextSegment, if_pos waiting, List.append_nil]
    exact ⟨held.queued.congr rfl rfl rfl, held.made, held.past, held.duration⟩
  · have sending : d.needIdr = false := by simpa using waiting
    obtain ⟨width, height, avcC, frames, all, numbered, number⟩ :=
      (made_sending sending _).mp held.made
    have room : ¬(!frameFits unit chunk) = true := by simp [fits sending]
    rw [MediaSourceDecoder.nextSegment, if_neg waiting, if_neg room, Runs.andThen,
      ← List.append_assoc]
    apply Held.tryAppend
    let frame : FrameSegment := ⟨d.sequenceNumber + 1, d.lastTimestampMicroseconds,
      durationMicroseconds, false, chunk⟩
    have grown : generatedFor d.latest (acts ++ [MediaAct.generated d.latest (.frame frame)]) =
        .init width height avcC :: (frames ++ [frame]).map Segment.frame := by
      simp [all]
    have newest : ∀ earlier ∈ frames, earlier.baseDecodeTime < frame.baseDecodeTime := by
      intro earlier member
      apply newer
      rw [all]
      exact List.mem_cons_of_mem _ (List.mem_map_of_mem member)
    refine ⟨(held.queued.push (.frame frame)).congr rfl rfl rfl,
      (made_sending (by exact sending) _).mpr ?_, ?_, held.duration⟩
    · refine ⟨width, height, avcC, frames ++ [frame], grown,
        numbered.concat (congrArg (· + 1) number) newest, ?_⟩
      simp [MediaSourceDecoder.push, number]
    · intro other member
      change .frame other ∈
        generatedFor d.latest (acts ++ [MediaAct.generated d.latest (.frame frame)])
        at member
      rw [generatedFor_append] at member
      rcases List.mem_append.mp member with earlier | last
      · exact held.past other earlier
      · simp only [generatedFor_generated, if_true, List.mem_singleton, Segment.frame.injEq] at last
        subst last
        exact le_refl _

-- A new SourceBuffer, for which nothing was made yet.
theorem Held.fresh (held : Held acts d) (empty : d.buffers = []) (unit : VideoDecodeUnit) :
    Queued acts { d with
      latest := d.latest + 1
      sourceBuffer := some (d.latest + 1, false)
      timestampMicrosecondsShift := unit.timestampMicroseconds
      lastTimestampMicroseconds := 0
      sequenceNumber := 1 } := by
  have new := held.queued.later (d.latest + 1) (Nat.lt_succ_self _)
  constructor
  case current =>
    intro sourceBuffer updating same
    exact (Prod.mk.inj (Option.some.inj same)).1.symm
  case earlier => exact fun sourceBuffer _ => held.disciplined sourceBuffer
  case later =>
    exact fun sourceBuffer after =>
      held.queued.later sourceBuffer (Nat.lt_of_succ_lt after)
  case queue => rw [new.1, new.2, empty, List.append_nil]

theorem Held.startSegments (held : Held acts d) (unit : VideoDecodeUnit)
    (avcC chunk : List UInt8) (durationMicroseconds : ℚ) (empty : d.buffers = [])
    (fits : d.needIdr = false →
      initFits avcC = true ∧ nalTypeAt chunk 4 = 5 ∧ frameFits unit chunk = true) :
    Held (acts ++ (d.startSegments unit avcC chunk durationMicroseconds).2)
      (d.startSegments unit avcC chunk durationMicroseconds).1 := by
  have fresh := held.fresh empty unit
  have new := (held.queued.later (d.latest + 1) (Nat.lt_succ_self _)).2
  rw [MediaSourceDecoder.startSegments]
  split
  next long =>
    -- Nothing was written, so no frame may have been sent before.
    have need : d.needIdr = true := by
      by_contra sending
      simp [(fits (by simpa using sending)).1] at long
    rw [List.append_nil]
    refine ⟨fresh, (made_waiting (by exact need) _).mpr (.inl new), fun frame member => ?_,
      held.duration⟩
    rw [new] at member
    exact absurd member List.not_mem_nil
  next =>
    let init : Segment := .init d.videoSize.1 d.videoSize.2 avcC
    have first := fresh.push init
    have alone : generatedFor (d.latest + 1) (acts ++ [MediaAct.generated (d.latest + 1) init]) =
        [init] := by simp [new]
    rw [Runs.andThen, ← List.append_assoc]
    split
    next unwritten =>
      have need : d.needIdr = true := by
        by_contra sending
        obtain ⟨-, slice, room⟩ := fits (by simpa using sending)
        simp [slice, room] at unwritten
      rw [List.append_nil]
      refine ⟨first, (made_waiting (by exact need) _).mpr (.inr ⟨_, _, _, alone⟩),
        fun frame member => ?_, held.duration⟩
      have one : Segment.frame frame ∈ [init] := alone ▸ member
      simp [init] at one
    next =>
      let frame : FrameSegment := ⟨1, 0, durationMicroseconds, true, chunk⟩
      have both := first.push (.frame frame)
      have two : generatedFor (d.latest + 1) (acts ++ [MediaAct.generated (d.latest + 1) init] ++
          [MediaAct.generated (d.latest + 1) (.frame frame)]) = [init, .frame frame] := by
        rw [generatedFor_append, alone]
        simp
      rw [Runs.andThen, ← List.append_assoc]
      apply Held.tryAppend
      refine ⟨both.congr rfl rfl rfl, (made_sending rfl _).mpr ?_, fun other member => ?_, held.duration⟩
      · exact ⟨_, _, _, [frame], two, ⟨rfl, List.pairwise_singleton _ _⟩, rfl⟩
      · have either : Segment.frame other ∈ [init, .frame frame] := two ▸ member
        obtain rfl : other = frame := by simpa [init] using either
        exact le_refl _

/-- One orderly event keeps the segments in order. -/
theorem Held.step {supports : List UInt8 → Bool} (held : Held acts d) (event : MediaEvent)
    (orderly : Orderly supports d event) :
    Held (acts ++ (d.step supports event).2) (d.step supports event).1 := by
  cases event with
  | error =>
    rw [MediaSourceDecoder.step, List.append_nil]
    exact ⟨held.queued.congr rfl rfl rfl, held.made, held.past, held.duration⟩
  | updateEnd sourceBuffer => exact held.onUpdateEnd sourceBuffer
  | submit unit =>
    rw [MediaSourceDecoder.step, MediaSourceDecoder.submitDecodeUnit]
    split
    next => simpa using held
    next running =>
      have value := orderly (by simpa using running)
      -- The translator is the one field that may have changed so far.
      have translated : Held acts
          { d with translator := (d.translator.submitDecodeUnit unit).1 } :=
        ⟨held.queued.congr rfl rfl rfl, held.made, held.past, held.duration⟩
      generalize d.translator.submitDecodeUnit unit = translation at value translated
      obtain ⟨translator, given⟩ := translation
      have after := fixTimestamp_lt translated.duration unit.timestampMicroseconds
      have later := translated.later after
      match given, value with
      | none, _ | some (none, none), _ | some (some _, none), _ => simpa using translated
      | some (none, some chunk), fits =>
        exact later.nextSegment unit chunk _
          (fun frame member => lt_of_le_of_lt (translated.past frame member) after) fits
      | some (some config, some chunk), fits =>
        change Held (acts ++ (ite _ _ _ : _ × List MediaAct).2) (ite _ _ _ : _ × _).1
        split
        next supported =>
          obtain ⟨empty, writable⟩ := fits supported
          exact later.startSegments unit config.description chunk _ empty writable
        next =>
          rw [List.append_nil]
          refine ⟨⟨?_, later.queued.earlier, later.queued.later, later.queued.queue⟩, later.made,
            later.past, later.duration⟩
          intro sourceBuffer updating none
          contradiction

end Steps

variable (supports : List UInt8 → Bool)

/-- In every run in which a SourceBuffer is replaced only while no segment waits, and no write
throws once frames are sent, each SourceBuffer is given its init segment and then the frames made
for it, in order. -/
theorem appends_disciplined (fps : ℚ) (positive : 0 < fps) (videoSize : Nat × Nat)
    (events : List MediaEvent)
    (orderly : Runs.Along (MediaSourceDecoder.step supports) (fun _ => Orderly supports) []
      (MediaSourceDecoder.new fps videoSize) events) (sourceBuffer : Nat) :
    Disciplined sourceBuffer
      (Runs.run (MediaSourceDecoder.step supports) (MediaSourceDecoder.new fps videoSize)
        events).2 := by
  have start : Held [] (MediaSourceDecoder.new fps videoSize) := by
    refine ⟨⟨fun _ _ none => ?_, fun _ before => ?_, fun _ _ => ⟨rfl, rfl⟩, rfl⟩, .inl rfl,
      fun _ member => ?_, ?_⟩
    · contradiction
    · exact absurd before (Nat.not_lt_zero _)
    · exact absurd member List.not_mem_nil
    · exact div_pos (by norm_num) positive
  have held := Runs.run_invariant (MediaSourceDecoder.step supports) (fun _ => Orderly supports)
    Held (fun _ _ event held orderly => held.step event orderly) [] _ events start orderly
  rw [List.nil_append] at held
  exact held.disciplined sourceBuffer

-- SPS, PPS and an IDR slice.
def keyUnit (timestampMicroseconds : ℚ) : VideoDecodeUnit :=
  ⟨true, [0, 0, 0, 1, 0x67, 0x42, 0xE0, 0x1F, 0, 0, 0, 1, 0x68, 0xCE, 0, 0, 0, 1, 0x65, 0x88],
    timestampMicroseconds⟩

-- The second key frame comes when both segments of the first one are appended.
def calmEvents : List MediaEvent :=
  [.submit (keyUnit 0), .updateEnd 1, .updateEnd 1, .submit (keyUnit 33333), .updateEnd 2]

theorem appends_disciplined_calm : Disciplined 2
    (Runs.run (MediaSourceDecoder.step fun _ => true) (MediaSourceDecoder.new 60 (1280, 720))
      calmEvents).2 :=
  appends_disciplined (fun _ => true) 60 (by norm_num) (1280, 720) calmEvents
    (by decide +kernel) 2

-- The second key frame comes before the first SourceBuffer has taken its init segment.
def hastyEvents : List MediaEvent := [.submit (keyUnit 0), .submit (keyUnit 33333)]

theorem hasty_undisciplined : ¬Disciplined 2
    (Runs.run (MediaSourceDecoder.step fun _ => true) (MediaSourceDecoder.new 60 (1280, 720))
      hastyEvents).2 := by
  intro disciplined
  exact absurd disciplined.own (by decide +kernel)

end Web

end BetterParsec
