import BetterParsec.Browser.AnnexBTranslator

set_option autoImplicit false
set_option linter.all false

/-!
# The two cuts at start codes

The translators of the browser and the splitter of the streamer on the same bytes: what
stands before the first start code is a NAL unit for the one and nothing for the other.
-/

namespace BetterParsec

namespace Translator

open BrowserBuffer (Uint8Array)
open LittleEndian (overwrite)
open StartCodes (StartCode Piece cut startsAt)
open AnnexB (AnnexBSplitter AnnexBData)

-- Each NAL unit after its length in four bytes.
def lengthPrefixed (nals : List (List UInt8)) : List UInt8 :=
  nals.flatMap fun nal => BigEndian.bytes 4 nal.length ++ nal

-- The chunk has the NAL units that are included, and all of them went through the translator.
def Translates {F : Type} (included : List UInt8 → Bool) (nals : List (List UInt8))
    (submitted : Except String (CodecStreamTranslator F × Submitted × List (List UInt8))) : Prop :=
  ∃ translator configure, submitted =
    .ok (translator, .done configure (some (lengthPrefixed (nals.filter included))), nals)

-- What is read of the bytes, minus the start codes.
def splitNals (data : List AnnexBData) : List (List UInt8) := data.map (·.piece.payload)

namespace H264StreamVideoTranslator

def included (nal : List UInt8) : Bool := h264NalType (nal.headD 0) ∉ [7, 8]

-- `h264ParseSps` reads four bytes.
def Cut (nal : List UInt8) : Prop := h264NalType (nal.headD 0) = 7 ∧ nal.length < 4

instance decidableCut (nal : List UInt8) : Decidable (Cut nal) :=
  inferInstanceAs (Decidable (_ ∧ _))

end H264StreamVideoTranslator

namespace H265StreamVideoTranslator

def included (nal : List UInt8) : Bool := h265NalType (nal.headD 0) ∉ [32, 33, 34]

end H265StreamVideoTranslator

section Frame

variable {F : Type} {translator : CodecStreamTranslator F}

theorem setBytes_ok {array bytes : List UInt8} {first : Nat}
    (fits : first + bytes.length ≤ array.length) :
    setBytes array bytes first = .ok (overwrite array first bytes) := by
  rw [setBytes, if_neg (by omega)]

-- `setUint32` keeps the last four bytes of a number.
theorem bytes_ofNat (n : Nat) : BigEndian.bytes 4 (UInt32.ofNat n).toNat = BigEndian.bytes 4 n := by
  rw [BigEndian.bytes, BigEndian.bytes, UInt32.toNat_ofNat', ← LittleEndian.bytes_mod 4 n,
    show 256 ^ 4 = 2 ^ 32 by decide]

theorem sizeBuffer_bytes (size : Nat) :
    ∃ sizeBuffer, (BrowserBuffer.ByteBuffer.new 4 false).putU32 (UInt32.ofNat size) none =
        .ok sizeBuffer ∧ sizeBuffer.flip.getRemainingBuffer = BigEndian.bytes 4 size := by
  obtain ⟨sizeBuffer, put, wrote⟩ := BrowserBuffer.putFieldOf_wrote
    (BrowserBuffer.own_new 4 false) false 4 (UInt32.ofNat size).toNat le_rfl
  refine ⟨sizeBuffer, put, ?_⟩
  have stored : sizeBuffer.buffer.memory.take 4 =
      BigEndian.bytes 4 (UInt32.ofNat size).toNat := wrote.stored
  have position : sizeBuffer.position = 4 := wrote.position
  rw [BrowserBuffer.remaining_flip wrote.own, position, stored, bytes_ofNat]

-- Growing the buffer keeps what was written.
theorem checkFrameBufferSize_ok {currentSize : Nat} (requiredExtra : Nat)
    (inside : currentSize ≤ translator.currentFrame.length) :
    ∃ currentFrame, translator.checkFrameBufferSize currentSize requiredExtra =
        .ok { translator with currentFrame := currentFrame } ∧
      currentSize + requiredExtra ≤ currentFrame.length ∧
      currentFrame.take currentSize = translator.currentFrame.take currentSize := by
  rw [CodecStreamTranslator.checkFrameBufferSize]
  split_ifs with small
  · have fits : 0 + translator.currentFrame.length ≤
        (List.replicate ((currentSize + requiredExtra) * 2) (0 : UInt8)).length := by
      rw [List.length_replicate]
      omega
    refine ⟨_, by simp only [setBytes_ok fits]; rfl, ?_, ?_⟩
    · rw [LittleEndian.length_overwrite _ _ _ fits, List.length_replicate]
      omega
    · rw [overwrite, List.take_zero, List.nil_append, List.take_append_of_le_length inside]
  · exact ⟨translator.currentFrame, rfl, by omega, rfl⟩

theorem append_ok {currentFrameSize : Nat} (slice : List UInt8)
    (inside : currentFrameSize ≤ translator.currentFrame.length) :
    ∃ currentFrame, translator.append currentFrameSize slice =
        .ok { translator with currentFrame := currentFrame } ∧
      currentFrameSize + (slice.length + 4) ≤ currentFrame.length ∧
      currentFrame.take (currentFrameSize + (slice.length + 4)) =
        translator.currentFrame.take currentFrameSize ++ lengthPrefixed [slice] := by
  obtain ⟨grown, checked, room, kept⟩ := checkFrameBufferSize_ok (slice.length + 4) inside
  obtain ⟨sizeBuffer, put, bytes⟩ := sizeBuffer_bytes slice.length
  have first : currentFrameSize + (BigEndian.bytes 4 slice.length).length ≤ grown.length := by
    rw [BigEndian.length_bytes]
    omega
  have length := LittleEndian.length_overwrite _ _ _ first
  have second : currentFrameSize + 4 + slice.length ≤
      (overwrite grown currentFrameSize (BigEndian.bytes 4 slice.length)).length := by
    rw [length]
    omega
  refine ⟨overwrite (overwrite grown currentFrameSize (BigEndian.bytes 4 slice.length))
    (currentFrameSize + 4) slice, ?_, ?_, ?_⟩
  · simp only [CodecStreamTranslator.append, checked, put, bytes, setBytes_ok first,
      setBytes_ok second, bind, Except.bind, pure, Except.pure]
  · rw [LittleEndian.length_overwrite _ _ _ second, length]
    omega
  · have written := LittleEndian.take_overwrite grown (BigEndian.bytes 4 slice.length)
      currentFrameSize (by omega)
    rw [BigEndian.length_bytes] at written
    have whole := LittleEndian.take_overwrite
      (overwrite grown currentFrameSize (BigEndian.bytes 4 slice.length)) slice
      (currentFrameSize + 4) (by omega)
    rw [show currentFrameSize + (slice.length + 4) = currentFrameSize + 4 + slice.length by omega,
      whole, written, kept, List.append_assoc]
    simp [lengthPrefixed]

end Frame

section Cutting

theorem startsWith_iff (data : List UInt8) (position : Nat) (check : List UInt8) :
    startsWith data position check ↔ check <+: data.drop position := by
  rw [startsWith, List.all_eq_true, List.prefix_iff_getElem?]
  simp only [List.mem_range, decide_eq_true_eq, List.getElem?_drop]
  constructor
  · intro same i bound
    rw [same i bound, List.getElem?_eq_getElem bound]
  · intro same i bound
    rw [same i bound, List.getElem?_eq_getElem bound]

theorem startCodeLength_eq (data : List UInt8) (position : Nat) :
    startCodeLength data position =
      (startsAt (data.drop position)).map (·.code.length) := by
  rw [startCodeLength, StartCodes.startsAt_eq]
  simp only [startsWith_iff]
  change (if StartCode.b4.code <+: _ then _ else if StartCode.b3.code <+: _ then _ else _) = _
  split_ifs <;> rfl

end Cutting

section Classes

-- A translator refuses some slices, and of the others it includes some in the frame.
structure Lawful {F : Type} (methods : Methods F) (refused : List UInt8 → Prop)
    (included : List UInt8 → Bool) : Prop where
  refuses : ∀ translator slice, refused slice →
    ∃ error, methods.onChunkUnit translator slice = .error error
  takes : ∀ translator slice, ¬ refused slice →
    ∃ next, methods.onChunkUnit translator slice = .ok (next, included slice) ∧
      next.currentFrame = translator.currentFrame ∧
      next.decoderConfig.isSome = translator.decoderConfig.isSome
  ends : ∀ translator, translator.decoderConfig.isSome →
    ∃ next reconfigure, methods.endChunk translator = .ok (next, reconfigure) ∧
      next.currentFrame = translator.currentFrame

-- The bytes that the buffer has not read.
def Unread (b : BrowserBuffer.ByteBuffer) (data : List UInt8) : Prop :=
  BrowserBuffer.Ahead b data ∧ b.position + data.length = b.buffer.memory.length

variable {b : BrowserBuffer.ByteBuffer} {data : List UInt8}

theorem Unread.cons {first : UInt8} (unread : Unread b (first :: data)) :
    b.getU8 = .ok (first, b.skip 1) ∧ Unread (b.skip 1) data := by
  have next : BrowserBuffer.Ahead b ([first] ++ data) := unread.1
  refine ⟨BrowserBuffer.getU8_ahead unread.1, next.next, ?_⟩
  have whole := unread.2
  rw [List.length_cons] at whole
  simp only [BrowserBuffer.ByteBuffer.skip]
  omega

theorem Unread.nil (unread : Unread b []) : b.getU8 = .error "RangeError" := by
  have whole := unread.2
  rw [List.length_nil] at whole
  rw [BrowserBuffer.ByteBuffer.getU8, BrowserBuffer.ByteBuffer.getUint, if_pos (by omega)]
  rfl

theorem unread_overArray (data : List UInt8) (littleEndian : Bool) :
    Unread (BrowserBuffer.ByteBuffer.overArray (ownArray data) littleEndian) data :=
  ⟨⟨by simp [BrowserBuffer.ByteBuffer.overArray, ownArray],
      by simp [BrowserBuffer.ByteBuffer.overArray, ownArray],
      by simp [BrowserBuffer.ByteBuffer.overArray, ownArray, LittleEndian.slice]⟩,
    by simp [BrowserBuffer.ByteBuffer.overArray, ownArray]⟩

-- The header and three bytes are read.
theorem h264ParseSps_ok (unread : Unread b data) (type : h264NalType (data.headD 0) = 7)
    (long : 4 ≤ data.length) : ∃ sps, h264ParseSps b = .ok sps := by
  match data with
  | header :: profileIdc :: constraintFlags :: levelIdc :: rest =>
    obtain ⟨first, unread⟩ := unread.cons
    obtain ⟨second, unread⟩ := unread.cons
    obtain ⟨third, unread⟩ := unread.cons
    obtain ⟨fourth, -⟩ := unread.cons
    have type : header &&& 0x1F = 7 := type
    simp [h264ParseSps, first, second, third, fourth, type, bind, Except.bind, pure, Except.pure]
  | [] | [_] | [_, _] | [_, _, _] => simp at long

theorem h264ParseSps_error (unread : Unread b data) (type : h264NalType (data.headD 0) = 7)
    (short : data.length < 4) : ∃ error, h264ParseSps b = .error error := by
  refine ⟨"RangeError", ?_⟩
  match data with
  | [] => exact absurd type (by decide)
  | header :: rest =>
    obtain ⟨first, unread⟩ := unread.cons
    have type : ¬(header &&& 0x1F ≠ 7) := not_not.mpr type
    rw [h264ParseSps, first]
    simp only [bind, Except.bind, if_neg type]
    match rest with
    | [] => rw [unread.nil]
    | [_] => 
      obtain ⟨second, unread⟩ := unread.cons
      simp only [second, unread.nil]
    | [_, _] => 
      obtain ⟨second, unread⟩ := unread.cons
      obtain ⟨third, unread⟩ := unread.cons
      simp only [second, third, unread.nil]
    | _ :: _ :: _ :: _ => simp at short; omega

theorem H264StreamVideoTranslator.lawful :
    Lawful methods Cut included := by
  refine ⟨fun translator slice cut => ?_, fun translator slice whole => ?_, fun translator known => ?_⟩
  · obtain ⟨error, refused⟩ := h264ParseSps_error (unread_overArray slice false) cut.1 cut.2
    refine ⟨error, ?_⟩
    simp only [methods, onChunkUnit, if_pos cut.1, refused]
    rfl
  · by_cases isSps : h264NalType (slice.headD 0) = 7
    · have long : 4 ≤ slice.length := by
        by_contra! short
        exact whole ⟨isSps, short⟩
      obtain ⟨sps, parsed⟩ := h264ParseSps_ok (unread_overArray slice false) isSps long
      have excluded : included slice = false := by rw [included, isSps]; decide
      simp only [methods, onChunkUnit, if_pos isSps, parsed, excluded]
      exact ⟨_, rfl, rfl, Option.isSome_map⟩
    simp only [methods, onChunkUnit, if_neg isSps]
    by_cases isPps : h264NalType (slice.headD 0) = 8
    · have excluded : included slice = false := by rw [included, isPps]; decide
      rw [if_pos isPps, excluded]
      exact ⟨_, rfl, rfl, rfl⟩
    · have taken : included slice = true := by
        simp [included, isSps, isPps, -List.headD_eq_head?_getD]
      rw [if_neg isPps, taken]
      exact ⟨translator, rfl, rfl, rfl⟩
  · obtain ⟨config, some_⟩ := Option.isSome_iff_exists.mp known
    simp only [methods, endChunk, some_]
    split
    · exact ⟨_, _, rfl, rfl⟩
    · exact ⟨_, _, rfl, rfl⟩

theorem H265StreamVideoTranslator.lawful :
    Lawful methods (fun _ => False) included := by
  refine ⟨fun translator slice cut => cut.elim, fun translator slice _ => ?_,
    fun translator known => ?_⟩
  · simp only [methods, onChunkUnit]
    by_cases isVps : h265NalType (slice.headD 0) = 32
    · have excluded : included slice = false := by rw [included, isVps]; decide
      rw [if_pos isVps, excluded]
      exact ⟨_, rfl, rfl, rfl⟩
    rw [if_neg isVps]
    by_cases isSps : h265NalType (slice.headD 0) = 33
    · have excluded : included slice = false := by rw [included, isSps]; decide
      rw [if_pos isSps, excluded]
      exact ⟨_, rfl, rfl, rfl⟩
    rw [if_neg isSps]
    by_cases isPps : h265NalType (slice.headD 0) = 34
    · have excluded : included slice = false := by rw [included, isPps]; decide
      rw [if_pos isPps, excluded]
      exact ⟨_, rfl, rfl, rfl⟩
    · have taken : included slice = true := by
        simp [included, isVps, isSps, isPps, -List.headD_eq_head?_getD]
      rw [if_neg isPps, taken]
      exact ⟨translator, rfl, rfl, rfl⟩
  · obtain ⟨config, some_⟩ := Option.isSome_iff_exists.mp known
    simp only [methods, endChunk, some_]
    split
    · exact ⟨_, _, rfl, rfl⟩
    · exact ⟨_, _, rfl, rfl⟩

end Classes

section Scanning

variable {F : Type} {methods : Methods F} {refused : List UInt8 → Prop}
  {included : List UInt8 → Bool} {data : List UInt8} {scan next last : Scan F}
  {slices later : List (List UInt8)}

def Scan.written (scan : Scan F) : List UInt8 :=
  scan.translator.currentFrame.take scan.currentFrameSize

-- The slices went through the translator, and those that it includes are in the frame.
structure Took (included : List UInt8 → Bool) (slices : List (List UInt8)) (scan next : Scan F) :
    Prop where
  handed : next.handed = scan.handed ++ slices
  written : next.written = scan.written ++ lengthPrefixed (slices.filter included)
  inside : next.currentFrameSize ≤ next.translator.currentFrame.length
  known : next.translator.decoderConfig.isSome = scan.translator.decoderConfig.isSome

theorem Took.trans (first : Took included slices scan next)
    (second : Took included later next last) : Took included (slices ++ later) scan last where
  handed := by rw [second.handed, first.handed, List.append_assoc]
  written := by
    rw [second.written, first.written, List.append_assoc, List.filter_append, lengthPrefixed,
      lengthPrefixed, lengthPrefixed, List.flatMap_append]
  inside := second.inside
  known := second.known.trans first.known

-- A call that hands the slices over, or throws at the first one that is refused.
def Hands (refused : List UInt8 → Prop) (included : List UInt8 → Bool)
    (slices : List (List UInt8)) (scan : Scan F) (called : Except String (Scan F)) : Prop :=
  ((∃ slice ∈ slices, refused slice) ∧ ∃ error, called = .error error) ∨
    (∀ slice ∈ slices, ¬ refused slice) ∧ ∃ next, called = .ok next ∧
      Took included slices scan next

theorem handleStartCode_hands (lawful : Lawful methods refused included)
    (inside : scan.currentFrameSize ≤ scan.translator.currentFrame.length) :
    (refused ((data.take scan.currentPosition).drop scan.unitBegin) ∧
      ∃ error, handleStartCode methods data scan = .error error) ∨
    ¬ refused ((data.take scan.currentPosition).drop scan.unitBegin) ∧
      ∃ next, handleStartCode methods data scan = .ok next ∧
        Took included [(data.take scan.currentPosition).drop scan.unitBegin] scan next ∧
        next.currentPosition = scan.currentPosition := by
  generalize taken : (data.take scan.currentPosition).drop scan.unitBegin = slice
  by_cases cut : refused slice
  · obtain ⟨error, thrown⟩ := lawful.refuses scan.translator slice cut
    refine .inl ⟨cut, error, ?_⟩
    simp only [handleStartCode, taken, thrown]
    rfl
  · obtain ⟨translator, called, same, known⟩ := lawful.takes scan.translator slice cut
    refine .inr ⟨cut, ?_⟩
    simp only [handleStartCode, taken, called, bind, Except.bind]
    cases takes : included slice with
    | false =>
      refine ⟨_, rfl, ⟨rfl, ?_, ?_, known⟩, rfl⟩
      · simp [Scan.written, same, takes, lengthPrefixed]
      · rw [same]
        exact inside
    | true =>
      obtain ⟨currentFrame, appended, room, whole⟩ := append_ok slice (same ▸ inside)
      simp only [appended, if_true]
      refine ⟨_, rfl, ⟨rfl, ?_, room, known⟩, rfl⟩
      simp only [Scan.written, whole, same, List.filter_cons, takes, if_true, List.filter_nil]

theorem Hands.of_single {slice : List UInt8} {called : Except String (Scan F)}
    (single : (refused slice ∧ ∃ error, called = .error error) ∨
      ¬ refused slice ∧ ∃ next, called = .ok next ∧ Took included [slice] scan next) :
    Hands refused included [slice] scan called := by
  rw [Hands, List.forall_mem_singleton]
  exact single.imp (fun thrown => ⟨⟨slice, List.mem_singleton_self slice, thrown.1⟩, thrown.2⟩) id

-- A slice that was taken in front of the others.
theorem Hands.cons {slice : List UInt8} {called : Except String (Scan F)}
    (first : Took included [slice] scan next) (whole : ¬ refused slice)
    (rest : Hands refused included slices next called) :
    Hands refused included (slice :: slices) scan called := by
  rcases rest with ⟨⟨other, member, cut⟩, thrown⟩ | ⟨all, last, done, took⟩
  · exact .inl ⟨⟨other, List.mem_cons_of_mem _ member, cut⟩, thrown⟩
  · exact .inr ⟨List.forall_mem_cons.mpr ⟨whole, all⟩, last, done, first.trans took⟩

-- It does not depend on the positions.
theorem Hands.placed {position begins : Nat} {called : Except String (Scan F)}
    (hands : Hands refused included slices
      { scan with currentPosition := position, unitBegin := begins } called) :
    Hands refused included slices scan called :=
  hands.imp id fun ⟨all, last, done, took⟩ =>
    ⟨all, last, done, took.handed, took.written, took.inside, took.known⟩

theorem hands_end (lawful : Lawful methods refused included)
    (inside : scan.currentFrameSize ≤ scan.translator.currentFrame.length)
    (ended : data.length ≤ scan.currentPosition) :
    Hands refused included
      (((data.take scan.currentPosition).drop scan.unitBegin ++
          (cut (data.drop scan.currentPosition)).1) ::
        (cut (data.drop scan.currentPosition)).2.map Piece.payload) scan
      (handleStartCode methods data scan) := by
  have nothing : cut (data.drop scan.currentPosition) = ([], []) := by
    rw [List.drop_eq_nil_of_le ended]
    rfl
  rw [nothing, List.append_nil]
  refine .of_single ((handleStartCode_hands lawful inside).imp id ?_)
  rintro ⟨whole, next, called, took, -⟩
  exact ⟨whole, next, called, took⟩

/-- From a position on, the slices are what was begun before it with what stands before the next
start code, and the units that follow. -/
theorem scanData_hands (lawful : Lawful methods refused included) (fuel : Nat)
    (inside : scan.currentFrameSize ≤ scan.translator.currentFrame.length)
    (moved : scan.currentPosition ≠ 0) (begun : scan.unitBegin ≤ scan.currentPosition)
    (within : scan.currentPosition ≤ data.length)
    (enough : data.length ≤ scan.currentPosition + fuel) :
    Hands refused included
      (((data.take scan.currentPosition).drop scan.unitBegin ++
          (cut (data.drop scan.currentPosition)).1) ::
        (cut (data.drop scan.currentPosition)).2.map Piece.payload) scan
      (scanData methods data fuel scan >>= handleStartCode methods data) := by
  induction fuel generalizing scan with
  | zero => exact hands_end lawful inside enough
  | succ fuel ih =>
    by_cases more : scan.currentPosition < data.length
    · rw [scanData, if_pos more, startCodeLength_eq]
      cases starts : startsAt (data.drop scan.currentPosition) with
      | some startCode =>
        simp only [Option.map_some, if_pos moved]
        rw [StartCodes.cut_start starts, List.append_nil]
        have handed : refused ((data.take scan.currentPosition).drop scan.unitBegin) ∧ _ ∨ _ :=
          handleStartCode_hands lawful inside
        rcases handed with ⟨cut, error, thrown⟩ | ⟨whole, next, called, took, same⟩
        · exact .inl ⟨⟨_, List.mem_cons_self, cut⟩, error, by rw [thrown]; rfl⟩
        · have room : scan.currentPosition + startCode.code.length ≤ data.length := by
            have length := (StartCodes.code_of_startsAt starts).length_le
            rw [List.length_drop] at length
            omega
          have positive := StartCodes.code_length_pos startCode
          have rest := @ih { next with
            currentPosition := next.currentPosition + startCode.code.length
            unitBegin := next.currentPosition + startCode.code.length } took.inside
            (by simp only [same]; omega) le_rfl (by simp only [same]; omega)
            (by simp only [same]; omega)
          have empty : (data.take (scan.currentPosition + startCode.code.length)).drop
              (scan.currentPosition + startCode.code.length) = [] :=
            List.drop_eq_nil_of_le (List.length_take_le _ _)
          simp only [same, empty, List.nil_append] at rest
          rw [called, List.drop_drop]
          simp only [bind, Except.bind, same] at rest ⊢
          exact .cons took whole rest.placed
      | none =>
        obtain ⟨byte, found⟩ : ∃ byte, data[scan.currentPosition]? = some byte :=
          ⟨_, List.getElem?_eq_getElem more⟩
        have split : data.drop scan.currentPosition =
            byte :: data.drop (scan.currentPosition + 1) :=
          (List.drop_eq_getElem?_toList_append ..).trans (by rw [found]; rfl)
        have further : (data.take (scan.currentPosition + 1)).drop scan.unitBegin =
            (data.take scan.currentPosition).drop scan.unitBegin ++ [byte] := by
          rw [List.take_add_one, found, List.drop_append_of_le_length (by simp; omega)]
          rfl
        rw [split] at starts
        rw [split, StartCodes.cut_byte starts]
        have rest := @ih { scan with currentPosition := scan.currentPosition + 1 } inside
          (by simp) (by simp only; omega) (by simp only; omega) (by simp only; omega)
        simp only [further, List.append_assoc, List.singleton_append] at rest
        exact rest.placed
    · have ended : data.length ≤ scan.currentPosition := by omega
      rw [scanData, if_neg more]
      exact hands_end lawful inside ended

end Scanning

section Submitting

variable {F : Type} {methods : Methods F} {refused : List UInt8 → Prop}
  {included : List UInt8 → Bool}

-- What stands before the first start code is a slice, even where there is none.
def slicesOf (data : List UInt8) : List (List UInt8) :=
  if startsAt data = none then (cut data).1 :: (cut data).2.map Piece.payload
  else (cut data).2.map Piece.payload

theorem slicesOf_hands (lawful : Lawful methods refused included)
    (translator : CodecStreamTranslator F) (data : List UInt8) :
    Hands refused included (slicesOf data) ⟨translator, 0, 0, 0, []⟩
      (scanData methods data data.length ⟨translator, 0, 0, 0, []⟩ >>=
        handleStartCode methods data) := by
  cases data with
  | nil =>
    have ended : Hands refused included _ ⟨translator, 0, 0, 0, []⟩
        (handleStartCode methods [] ⟨translator, 0, 0, 0, []⟩) :=
      hands_end lawful (Nat.zero_le _) (Nat.zero_le _)
    exact ended
  | cons byte rest =>
    simp only [slicesOf, List.length_cons, scanData, Nat.zero_lt_succ, if_true, startCodeLength_eq,
      List.drop_zero]
    cases starts : startsAt (byte :: rest) with
    | some startCode =>
      have room : startCode.code.length ≤ (byte :: rest).length :=
        (StartCodes.code_of_startsAt starts).length_le
      have positive := StartCodes.code_length_pos startCode
      have later : Hands refused included _
          ⟨translator, startCode.code.length, startCode.code.length, 0, []⟩ (scanData methods
            (byte :: rest) rest.length
              ⟨translator, startCode.code.length, startCode.code.length, 0, []⟩ >>=
                handleStartCode methods (byte :: rest)) :=
        scanData_hands lawful rest.length (Nat.zero_le _) positive.ne' le_rfl room
          (by simp only [List.length_cons]; omega)
      have empty : ((byte :: rest).take startCode.code.length).drop startCode.code.length = [] :=
        List.drop_eq_nil_of_le (List.length_take_le _ _)
      simp only [empty, List.nil_append] at later
      rw [StartCodes.cut_start starts]
      simp only [Option.map_some, bind, Except.bind, Nat.zero_add] at later ⊢
      exact later.placed
    | none =>
      have later : Hands refused included _ ⟨translator, 0, 1, 0, []⟩ (scanData methods
            (byte :: rest) rest.length ⟨translator, 0, 1, 0, []⟩ >>=
              handleStartCode methods (byte :: rest)) :=
        scanData_hands lawful rest.length (Nat.zero_le _) Nat.one_ne_zero (Nat.zero_le _)
          (by simp) (by simp only [List.length_cons]; omega)
      rw [StartCodes.cut_byte starts]
      exact later.placed

theorem submitDecodeUnit_hands (lawful : Lawful methods refused included)
    {translator : CodecStreamTranslator F} {decodeUnit : VideoDecodeUnit}
    (known : translator.decoderConfig.isSome)
    (processed : methods.startProcessChunk translator decodeUnit) :
    ((∃ slice ∈ slicesOf decodeUnit.data, refused slice) ∧
      ∃ error, submitDecodeUnit methods translator decodeUnit = .error error) ∨
    (∀ slice ∈ slicesOf decodeUnit.data, ¬ refused slice) ∧ ∃ next configure,
      submitDecodeUnit methods translator decodeUnit = .ok (next, .done configure
        (some (lengthPrefixed ((slicesOf decodeUnit.data).filter included))),
          slicesOf decodeUnit.data) := by
  have called : submitDecodeUnit methods translator decodeUnit =
      (scanData methods decodeUnit.data decodeUnit.data.length ⟨translator, 0, 0, 0, []⟩ >>=
        handleStartCode methods decodeUnit.data) >>= (fun scan =>
          methods.endChunk scan.translator >>= fun ended =>
            pure (ended.1, .done (if ended.2 then ended.1.decoderConfig else none)
              (some (ended.1.currentFrame.take scan.currentFrameSize)), scan.handed)) := by
    have config : translator.decoderConfig.isNone = false := by
      rw [← Option.not_isSome, known]
      rfl
    simp only [submitDecodeUnit, config, processed]
    rw [bind_assoc]
    rfl
  rcases slicesOf_hands lawful translator decodeUnit.data with
    ⟨cut, error, thrown⟩ | ⟨whole, scan, done, took⟩
  · refine .inl ⟨cut, error, ?_⟩
    rw [called, thrown]
    rfl
  · obtain ⟨next, reconfigure, ended, same⟩ := lawful.ends scan.translator (took.known.trans known)
    have handed : scan.handed = slicesOf decodeUnit.data := took.handed
    have written : next.currentFrame.take scan.currentFrameSize =
        lengthPrefixed ((slicesOf decodeUnit.data).filter included) := by
      rw [same]
      exact took.written
    refine .inr ⟨whole, next, if reconfigure then next.decoderConfig else none, ?_⟩
    rw [called, done]
    simp only [bind, Except.bind, ended, pure, Except.pure, handed, written]

/-- The chunk has the units of the bytes exactly if these begin with a start code and no unit is
refused. -/
theorem translates_iff (lawful : Lawful methods refused included)
    {translator : CodecStreamTranslator F} {decodeUnit : VideoDecodeUnit}
    (known : translator.decoderConfig.isSome)
    (processed : methods.startProcessChunk translator decodeUnit) :
    Translates included ((cut decodeUnit.data).2.map Piece.payload)
        (submitDecodeUnit methods translator decodeUnit) ↔
      startsAt decodeUnit.data ≠ none ∧
        ∀ nal ∈ (cut decodeUnit.data).2.map Piece.payload, ¬ refused nal := by
  rcases submitDecodeUnit_hands lawful known processed with
    ⟨⟨slice, member, cut⟩, error, thrown⟩ | ⟨whole, next, configure, done⟩
  · refine iff_of_false ?_ ?_
    · rintro ⟨translator, configure, done⟩
      exact nomatch thrown.symm.trans done
    · rintro ⟨starts, whole⟩
      rw [slicesOf, if_neg starts] at member
      exact whole slice member cut
  · by_cases starts : startsAt decodeUnit.data = none
    · refine iff_of_false ?_ fun both => both.1 starts
      rintro ⟨translator, configure, same⟩
      have lengths := congrArg (fun called => called.toOption.map (·.2.2.length)) (done.symm.trans same)
      rw [slicesOf, if_pos starts] at lengths
      simp [Except.toOption] at lengths
    · rw [slicesOf, if_neg starts] at whole done
      exact iff_of_true ⟨next, configure, done⟩ ⟨starts, whole⟩

theorem splitNals_reads {data : List UInt8} {units : List AnnexBData} {final : AnnexBSplitter}
    (reads : AnnexBSplitter.Reads (.new data) units final) :
    splitNals units = (cut data).2.map Piece.payload := by
  obtain ⟨found, last, again, -, -, -, -, only⟩ := AnnexBSplitter.splits_maximal data
  obtain ⟨rfl, -⟩ := reads.unique again
  rw [only _ _ (StartCodes.cut_decomposes data), List.map_map]
  rfl

/-- Whatever came before, the chunk of a decode unit has the NAL units that the splitter of the
streamer finds in its bytes, minus the parameter sets, exactly if the bytes begin with a start code
and, for H.264, no SPS is shorter than four bytes. -/
theorem submitDecodeUnit_iff {decodeUnit : VideoDecodeUnit} {units : List AnnexBData}
    {final : AnnexBSplitter} (reads : AnnexBSplitter.Reads (.new decodeUnit.data) units final) :
    (∀ translator : H264StreamVideoTranslator, translator.decoderConfig.isSome →
      H264StreamVideoTranslator.methods.startProcessChunk translator decodeUnit →
      (Translates H264StreamVideoTranslator.included (splitNals units)
          (submitDecodeUnit H264StreamVideoTranslator.methods translator decodeUnit) ↔
        startsAt decodeUnit.data ≠ none ∧
          ∀ nal ∈ splitNals units, ¬ H264StreamVideoTranslator.Cut nal)) ∧
    ∀ translator : H265StreamVideoTranslator, translator.decoderConfig.isSome →
      H265StreamVideoTranslator.methods.startProcessChunk translator decodeUnit →
      (Translates H265StreamVideoTranslator.included (splitNals units)
          (submitDecodeUnit H265StreamVideoTranslator.methods translator decodeUnit) ↔
        startsAt decodeUnit.data ≠ none) := by
  rw [splitNals_reads reads]
  refine ⟨fun translator known processed => ?_, fun translator known processed => ?_⟩
  · exact translates_iff H264StreamVideoTranslator.lawful known processed
  · refine (translates_iff H265StreamVideoTranslator.lawful known processed).trans ?_
    exact and_iff_left fun _ _ => not_false

-- A key frame of a delimiter and a slice.
theorem submitDecodeUnit_iff_slice :
    ∃ units final, AnnexBSplitter.Reads (.new [0, 0, 0, 1, 9, 0, 0, 1, 0x65, 1]) units final ∧
      Translates H264StreamVideoTranslator.included (splitNals units)
        (submitDecodeUnit H264StreamVideoTranslator.methods
          ⟨some ⟨"avc1.42E01E", none⟩, [], ⟨false, none, none⟩⟩
            ⟨true, [0, 0, 0, 1, 9, 0, 0, 1, 0x65, 1]⟩) ∧
      Translates H265StreamVideoTranslator.included (splitNals units)
        (submitDecodeUnit H265StreamVideoTranslator.methods
          ⟨some ⟨"hvc1.1.6.L93.B0", none⟩, [], ⟨false, none, none, none⟩⟩
            ⟨true, [0, 0, 0, 1, 9, 0, 0, 1, 0x65, 1]⟩) := by
  obtain ⟨units, final, reads, -⟩ :=
    AnnexBSplitter.splits_maximal [0, 0, 0, 1, 9, 0, 0, 1, 0x65, 1]
  refine ⟨units, final, reads, ?_, ?_⟩
  · refine ((submitDecodeUnit_iff reads).1 _ rfl rfl).mpr ⟨by decide, ?_⟩
    rw [splitNals_reads reads]
    decide +kernel
  · exact ((submitDecodeUnit_iff reads).2 _ rfl rfl).mpr (by decide)

end Submitting

-- A byte in front of the first start code is a NAL unit for the translator.
theorem submitDecodeUnit_differs :
    ∃ units final, AnnexBSplitter.Reads (.new [9, 0, 0, 1, 0x65]) units final ∧
      ¬ Translates H264StreamVideoTranslator.included (splitNals units)
        (submitDecodeUnit H264StreamVideoTranslator.methods
          ⟨some ⟨"avc1.42E01E", none⟩, [], ⟨false, none, none⟩⟩ ⟨true, [9, 0, 0, 1, 0x65]⟩) := by
  obtain ⟨units, final, reads, -⟩ := AnnexBSplitter.splits_maximal [9, 0, 0, 1, 0x65]
  refine ⟨units, final, reads, ?_⟩
  rw [splitNals_reads reads]
  rintro ⟨translator, configure, same⟩
  have handed : (submitDecodeUnit H264StreamVideoTranslator.methods
      ⟨some ⟨"avc1.42E01E", none⟩, [], ⟨false, none, none⟩⟩ ⟨true, [9, 0, 0, 1, 0x65]⟩).map
        (·.2.2) = .ok [[9], [0x65]] := by decide +kernel
  rw [same] at handed
  have other : (cut [9, 0, 0, 1, 0x65]).2.map Piece.payload ≠ [[9], [0x65]] := by decide +kernel
  exact other (Except.ok.inj handed)

end Translator

end BetterParsec
