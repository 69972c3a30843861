import BetterParsec.Browser.TranslatorAgreement

set_option autoImplicit false
set_option linter.all false

/-!
# The description of a translator

The parameter sets that the translators of `web/stream/video/annex_b_translator.ts` keep from one
decode unit to the next, and when they ask for a new configuration.
-/

namespace BetterParsec

namespace Translator

-- What `onChunkUnit` keeps of a slice, when a description is known, and when one can be made.
structure Description (F : Type) where
  keep : F → List UInt8 → F
  described : F → Bool
  complete : F → Bool

namespace H264StreamVideoTranslator

def description : Description H264Fields where
  keep fields slice :=
    if h264NalType (slice.headD 0) = 7 then { fields with sps := some slice }
    else if h264NalType (slice.headD 0) = 8 then { fields with pps := some slice }
    else fields
  described := H264Fields.hasDescription
  complete fields := fields.pps.isSome && fields.sps.isSome

def new : H264StreamVideoTranslator :=
  ⟨some ⟨"undefined", none⟩, List.replicate 1000 0, ⟨false, none, none⟩⟩

end H264StreamVideoTranslator

namespace H265StreamVideoTranslator

def description : Description H265Fields where
  keep fields slice :=
    if h265NalType (slice.headD 0) = 32 then { fields with vps := some slice }
    else if h265NalType (slice.headD 0) = 33 then { fields with sps := some slice }
    else if h265NalType (slice.headD 0) = 34 then { fields with pps := some slice }
    else fields
  described := H265Fields.hasDescription
  complete fields := fields.vps.isSome && fields.sps.isSome && fields.pps.isSome

def new : H265StreamVideoTranslator :=
  ⟨some ⟨"undefined", none⟩, List.replicate 1000 0, ⟨false, none, none, none⟩⟩

end H265StreamVideoTranslator

section Describes

structure Describes {F : Type} (methods : Methods F) (description : Description F) : Prop where
  starts : ∀ translator decodeUnit, methods.startProcessChunk translator decodeUnit =
    (decodeUnit.key || description.described translator.fields)
  chunk : ∀ translator slice next included,
    methods.onChunkUnit translator slice = .ok (next, included) →
      next.fields = description.keep translator.fields slice ∧
        next.decoderConfig.isSome = translator.decoderConfig.isSome
  keeps : ∀ fields slice, description.described (description.keep fields slice) =
    description.described fields
  ends : ∀ translator next reconfigure, methods.endChunk translator = .ok (next, reconfigure) →
    reconfigure = description.complete translator.fields ∧
      description.described next.fields =
        (description.described translator.fields || description.complete translator.fields) ∧
      next.decoderConfig.isSome

theorem H264StreamVideoTranslator.describes : Describes methods description where
  starts _ _ := rfl
  chunk translator slice next included called := by
    simp only [methods, onChunkUnit, description] at called ⊢
    split_ifs at called ⊢ with isSps isPps
    · cases parsed : h264ParseSps (BrowserBuffer.ByteBuffer.overArray (ownArray slice) false) with
      | error thrown => simp [parsed, bind, Except.bind] at called
      | ok sps =>
        simp only [parsed, bind, Except.bind, pure, Except.pure, Except.ok.injEq,
          Prod.mk.injEq] at called
        rw [← called.1]
        exact ⟨rfl, Option.isSome_map⟩
    · cases called
      exact ⟨rfl, rfl⟩
    · cases called
      exact ⟨rfl, rfl⟩
  keeps fields slice := by
    simp only [description]
    split_ifs
    · rfl
    · rfl
    · rfl
  ends translator next reconfigure called := by
    simp only [methods, endChunk] at called
    split at called
    · simp at called
    · rename_i config known
      split at called
      · rename_i pps sps hasPps hasSps
        cases called
        simp [description, hasPps, hasSps]
      · rename_i incomplete
        cases called
        have missing : (translator.fields.pps.isSome && translator.fields.sps.isSome) = false := by
          cases pps : translator.fields.pps with
          | none => rfl
          | some pps =>
            cases sps : translator.fields.sps with
            | none => rfl
            | some sps => exact absurd sps (incomplete _ _ pps)
        simp [description, missing, known]

theorem H265StreamVideoTranslator.describes : Describes methods description where
  starts _ _ := rfl
  chunk translator slice next included called := by
    simp only [methods, onChunkUnit, description] at called ⊢
    split_ifs at called ⊢ with isVps isSps isPps
    · cases called
      exact ⟨rfl, rfl⟩
    · cases called
      exact ⟨rfl, rfl⟩
    · cases called
      exact ⟨rfl, rfl⟩
    · cases called
      exact ⟨rfl, rfl⟩
  keeps fields slice := by
    simp only [description]
    split_ifs
    · rfl
    · rfl
    · rfl
    · rfl
  ends translator next reconfigure called := by
    simp only [methods, endChunk] at called
    split at called
    · simp at called
    · rename_i config known
      split at called
      · rename_i vps sps pps hasVps hasSps hasPps
        cases called
        simp [description, hasVps, hasSps, hasPps]
      · rename_i incomplete
        cases called
        have missing : (translator.fields.vps.isSome && translator.fields.sps.isSome &&
            translator.fields.pps.isSome) = false := by
          cases vps : translator.fields.vps with
          | none => rfl
          | some vps =>
            cases sps : translator.fields.sps with
            | none => rfl
            | some sps =>
              cases pps : translator.fields.pps with
              | none => rfl
              | some pps => exact absurd pps (incomplete _ _ _ vps sps)
        simp [description, missing, known]

end Describes

section Scanning

variable {F : Type} {methods : Methods F} {description : Description F} {data : List UInt8}

theorem of_bind {α β : Type} {called : Except String α} {next : α → Except String β} {result : β}
    (returned : called >>= next = .ok result) :
    ∃ value, called = .ok value ∧ next value = .ok result := by
  cases called with
  | error thrown => simp [bind, Except.bind] at returned
  | ok value => exact ⟨value, rfl, returned⟩

theorem checkFrameBufferSize_fields {translator next : CodecStreamTranslator F} {size extra : Nat}
    (called : translator.checkFrameBufferSize size extra = .ok next) :
    next.fields = translator.fields ∧ next.decoderConfig = translator.decoderConfig := by
  rw [CodecStreamTranslator.checkFrameBufferSize] at called
  split_ifs at called
  · obtain ⟨grown, -, returned⟩ := of_bind called
    cases returned
    exact ⟨rfl, rfl⟩
  · cases called
    exact ⟨rfl, rfl⟩

theorem append_fields {translator next : CodecStreamTranslator F} {size : Nat}
    {slice : List UInt8} (called : translator.append size slice = .ok next) :
    next.fields = translator.fields ∧ next.decoderConfig = translator.decoderConfig := by
  obtain ⟨grown, checked, called⟩ := of_bind called
  obtain ⟨sizeBuffer, -, called⟩ := of_bind called
  obtain ⟨withSize, -, called⟩ := of_bind called
  obtain ⟨withSlice, -, returned⟩ := of_bind called
  have same := checkFrameBufferSize_fields checked
  cases returned
  exact same

-- The slices that were handed over are kept.
def Keeps (description : Description F) (scan next : Scan F) : Prop :=
  ∃ slices, next.handed = scan.handed ++ slices ∧
    next.translator.fields = slices.foldl description.keep scan.translator.fields ∧
    next.translator.decoderConfig.isSome = scan.translator.decoderConfig.isSome

theorem Keeps.refl (scan : Scan F) : Keeps description scan scan :=
  ⟨[], (List.append_nil _).symm, rfl, rfl⟩

theorem Keeps.trans {scan next last : Scan F} (first : Keeps description scan next)
    (second : Keeps description next last) : Keeps description scan last := by
  obtain ⟨before, handed, fields, known⟩ := first
  obtain ⟨after, handed', fields', known'⟩ := second
  refine ⟨before ++ after, ?_, ?_, known'.trans known⟩
  · rw [handed', handed, List.append_assoc]
  · rw [fields', fields, List.foldl_append]

theorem handleStartCode_keeps (describes : Describes methods description) {scan next : Scan F}
    (called : handleStartCode methods data scan = .ok next) : Keeps description scan next := by
  obtain ⟨⟨translator, included⟩, taken, called⟩ := of_bind called
  obtain ⟨fields, known⟩ := describes.chunk _ _ _ _ taken
  dsimp only at called
  cases included with
  | true =>
    obtain ⟨appended, append, returned⟩ := of_bind called
    obtain ⟨same, config⟩ := append_fields append
    cases returned
    exact ⟨[_], rfl, same.trans fields, (congrArg Option.isSome config).trans known⟩
  | false =>
    cases called
    exact ⟨[_], rfl, fields, known⟩

theorem scanData_keeps (describes : Describes methods description) {fuel : Nat}
    {scan next : Scan F} (called : scanData methods data fuel scan = .ok next) :
    Keeps description scan next := by
  induction fuel generalizing scan with
  | zero =>
    cases called
    exact .refl _
  | succ fuel ih =>
    by_cases more : scan.currentPosition < data.length
    · rw [scanData, if_pos more] at called
      cases code : startCodeLength data scan.currentPosition with
      | none =>
        rw [code] at called
        exact @ih { scan with currentPosition := scan.currentPosition + 1 } called
      | some length =>
        rw [code] at called
        dsimp only at called
        split_ifs at called with begun
        · obtain ⟨first, handed, called⟩ := of_bind called
          have later : Keeps description first next := @ih { first with
            currentPosition := first.currentPosition + length
            unitBegin := first.currentPosition + length } called
          exact (handleStartCode_keeps describes handed).trans later
        · exact @ih { scan with
            currentPosition := scan.currentPosition + length
            unitBegin := scan.currentPosition + length } called
    · rw [scanData, if_neg more] at called
      cases called
      exact .refl _

-- The sets a translator has before it ends a chunk.
def Description.after (description : Description F) (fields : F) (data : List UInt8) : F :=
  (slicesOf data).foldl description.keep fields

theorem Describes.foldl (describes : Describes methods description) (fields : F)
    (slices : List (List UInt8)) :
    description.described (slices.foldl description.keep fields) = description.described fields := by
  induction slices generalizing fields with
  | nil => rfl
  | cons slice rest ih => rw [List.foldl_cons, ih, describes.keeps]

theorem submitDecodeUnit_describes (describes : Describes methods description)
    {translator next : CodecStreamTranslator F} {decodeUnit : VideoDecodeUnit}
    {configure : Option VideoDecoderConfig} {chunk : List UInt8}
    (known : translator.decoderConfig.isSome)
    (processed : methods.startProcessChunk translator decodeUnit)
    (called : submitDecodeUnit methods translator decodeUnit =
      .ok (next, .done configure (some chunk), slicesOf decodeUnit.data)) :
    configure.isSome = description.complete (description.after translator.fields decodeUnit.data) ∧
      description.described next.fields = (description.described translator.fields ||
        description.complete (description.after translator.fields decodeUnit.data)) ∧
      next.decoderConfig.isSome := by
  rw [submitDecodeUnit, if_neg (by simp [Option.isSome_iff_ne_none.mp known]), if_neg (by simpa using processed)] at called
  obtain ⟨scanned, scan, called⟩ := of_bind called
  obtain ⟨last, final, called⟩ := of_bind called
  obtain ⟨⟨ended, reconfigure⟩, finish, returned⟩ := of_bind called
  obtain ⟨slices, handed, fields, -⟩ :=
    (scanData_keeps describes scan).trans (handleStartCode_keeps describes final)
  obtain ⟨exact, described, config⟩ := describes.ends _ _ _ finish
  simp only [pure, Except.pure, Except.ok.injEq, Prod.mk.injEq, Submitted.done.injEq] at returned
  obtain ⟨rfl, ⟨rfl, -⟩, all⟩ := returned
  have whole : last.translator.fields = description.after translator.fields decodeUnit.data := by
    rw [fields, Description.after, ← all, handed]
    rfl
  rw [whole] at exact described
  refine ⟨?_, ?_, config⟩
  · rw [exact]
    cases description.complete (description.after translator.fields decodeUnit.data) with
    | false => rfl
    | true => exact config
  · rw [described, Description.after, describes.foldl]

/-- With a configuration: the unit is passed over, or a slice of it throws, or there is a chunk, and
a configuration with it exactly if the sets are complete. -/
theorem submitDecodeUnit_cases {refused : List UInt8 → Prop} {included : List UInt8 → Bool}
    (lawful : Lawful methods refused included) (describes : Describes methods description)
    {translator : CodecStreamTranslator F} (decodeUnit : VideoDecodeUnit)
    (known : translator.decoderConfig.isSome) :
    (¬(decodeUnit.key || description.described translator.fields) ∧
      submitDecodeUnit methods translator decodeUnit = .ok (translator, .done none none, [])) ∨
    (decodeUnit.key || description.described translator.fields) ∧
      (((∃ slice ∈ slicesOf decodeUnit.data, refused slice) ∧
        ∃ error, submitDecodeUnit methods translator decodeUnit = .error error) ∨
      (∀ slice ∈ slicesOf decodeUnit.data, ¬refused slice) ∧ ∃ next configure chunk,
        submitDecodeUnit methods translator decodeUnit =
          .ok (next, .done configure (some chunk), slicesOf decodeUnit.data) ∧
        configure.isSome =
          description.complete (description.after translator.fields decodeUnit.data) ∧
        description.described next.fields = (description.described translator.fields ||
          description.complete (description.after translator.fields decodeUnit.data)) ∧
        next.decoderConfig.isSome) := by
  rw [← describes.starts]
  by_cases processed : methods.startProcessChunk translator decodeUnit
  · refine .inr ⟨processed, (submitDecodeUnit_hands lawful known processed).imp id ?_⟩
    intro ⟨whole, next, configure, called⟩
    exact ⟨whole, next, configure, _, called,
      submitDecodeUnit_describes describes known processed called⟩
  · refine .inl ⟨processed, ?_⟩
    rw [submitDecodeUnit, if_neg (by simp [Option.isSome_iff_ne_none.mp known]), if_pos processed]

-- What a call leaves that throws at a slice: the rounds before it, and what `onChunkUnit` assigned
-- before it threw.
def leftBy (methods : Methods F)
    (assigned : CodecStreamTranslator F → List UInt8 → CodecStreamTranslator F)
    (data : List UInt8) : Nat → Scan F → CodecStreamTranslator F
  | 0, scan => assigned scan.translator ((data.take scan.currentPosition).drop scan.unitBegin)
  | fuel + 1, scan =>
      match scanData methods data 1 scan with
      | .ok next => leftBy methods assigned data fuel next
      | .error _ => assigned scan.translator ((data.take scan.currentPosition).drop scan.unitBegin)

theorem leftBy_describes (describes : Describes methods description)
    {assigned : CodecStreamTranslator F → List UInt8 → CodecStreamTranslator F}
    (same : ∀ translator slice,
      description.described (assigned translator slice).fields =
          description.described translator.fields ∧
        (assigned translator slice).decoderConfig.isSome = translator.decoderConfig.isSome)
    (data : List UInt8) (fuel : Nat) (scan : Scan F) :
    description.described (leftBy methods assigned data fuel scan).fields =
        description.described scan.translator.fields ∧
      (leftBy methods assigned data fuel scan).decoderConfig.isSome =
        scan.translator.decoderConfig.isSome := by
  induction fuel generalizing scan with
  | zero => exact same _ _
  | succ fuel ih =>
    rw [leftBy]
    cases round : scanData methods data 1 scan with
    | error thrown => exact same _ _
    | ok next =>
      obtain ⟨slices, -, fields, known⟩ := scanData_keeps describes round
      obtain ⟨described, config⟩ := ih next
      exact ⟨by rw [described, fields, describes.foldl], config.trans known⟩

end Scanning

end Translator

end BetterParsec
