import BetterParsec.Library.Runs
import BetterParsec.Streamer.AnnexB
import BetterParsec.Streamer.Payloaders

set_option autoImplicit false
set_option linter.all false

/-!
# The NAL readers

`H264Reader` and `H265Reader` of `webrtc/video`, and how `send_decode_unit` reads the
NAL units of one frame after the other with one of them. A unit that is shorter
than its header makes a slice go out of range.
-/

namespace BetterParsec

namespace AnnexB

open StartCodes (StartCode Piece joined mark cut Maximal)

-- A NAL unit with its header; both codecs have the same record.
structure Nal (H : Type) where
  payloadRange : Nat × Nat
  header : H
  headerRange : Nat × Nat
  startCode : StartCode
  startCodeRange : Nat × Nat
  full : List UInt8

namespace AnnexBSplitter

-- `while let Ok(Some(_)) = self.next() {}`.
def drain : Nat → AnnexBSplitter → AnnexBSplitter
  | 0, splitter => splitter
  | fuel + 1, splitter =>
      match splitter.next with
      | (next, none) => next
      | (next, some _) => drain fuel next

-- Each call but the first takes a start code from the reader.
def reset (splitter : AnnexBSplitter) (newReader : List UInt8) : AnnexBSplitter :=
  { drain (splitter.reader.length + 2) splitter with reader := newReader }

section Reading

variable {H : Type} (headerSize : Nat) (parse : List UInt8 → H)

-- Nothing is returned where a range exceeds the bytes.
def nextNal (splitter : AnnexBSplitter) : Option (AnnexBSplitter × Option (Nal H)) :=
  match splitter.next with
  | (next, none) => some (next, none)
  | (next, some annexB) =>
      let headerRange := (annexB.payloadRange.1, annexB.payloadRange.1 + headerSize)
      if headerRange.2 > annexB.full.length then none
      else some (next, some {
        payloadRange := (headerRange.2, annexB.payloadRange.2)
        header := parse (annexB.slice headerRange)
        headerRange := headerRange
        startCode := annexB.startCode
        startCodeRange := annexB.startCodeRange
        full := annexB.full })

-- `while let Ok(Some(nal)) = nal_reader.next_nal()`. Filler data, which the loop for H.264 does not
-- send, is among what it obtains.
def readNals : Nat → AnnexBSplitter → Option (AnnexBSplitter × List (Nal H))
  | 0, splitter => some (splitter, [])
  | fuel + 1, splitter =>
      match nextNal headerSize parse splitter with
      | none => none
      | some (next, none) => some (next, [])
      | some (next, some nal) =>
          (readNals fuel next).map fun (final, nals) => (final, nal :: nals)

def readFrame (splitter : AnnexBSplitter) (fullFrame : List UInt8) :
    Option (AnnexBSplitter × List (Nal H)) :=
  readNals headerSize parse (fullFrame.length + 2) (splitter.reset fullFrame)

end Reading

end AnnexBSplitter

-- `trim_bytes_to_range` of the header and the payload.
def Nal.data {H : Type} (nal : Nal H) : List UInt8 :=
  (nal.full.take nal.payloadRange.2).drop nal.headerRange.1

inductive FrameRead where
  | nals (fullFrame : List UInt8) (data : List (List UInt8))
  | panicked (fullFrame : List UInt8)
  deriving DecidableEq

section Frames

open AnnexBSplitter

variable {H : Type} (headerSize : Nat) (parse : List UInt8 → H)

-- A frame, with the reader as the one before left it; nothing is read after a panic.
def step : Option AnnexBSplitter → List UInt8 → Option AnnexBSplitter × List FrameRead
  | none, _ => (none, [])
  | some splitter, fullFrame =>
      match splitter.readFrame headerSize parse fullFrame with
      | none => (none, [.panicked fullFrame])
      | some (final, nals) => (some final, [.nals fullFrame (nals.map Nal.data)])

-- The units that a frame has by itself.
def nalsOf (fullFrame : List UInt8) : List (List UInt8) := (cut fullFrame).2.map Piece.payload

-- What was read of a frame is a function of the frame.
def FrameRead.Independent : FrameRead → Prop
  | .nals fullFrame data => data = nalsOf fullFrame
  | .panicked _ => False

instance decidableIndependent : (read : FrameRead) → Decidable read.Independent
  | .nals fullFrame data => inferInstanceAs (Decidable (data = nalsOf fullFrame))
  | .panicked _ => inferInstanceAs (Decidable False)

-- A start code that begins in the bytes of an earlier frame.
def Straddles (window : StartCodeBuffer) (fullFrame : List UInt8) : Prop :=
  window.third = 0 ∧ window.fourth = 0 ∧ [1] <+: fullFrame ∨
    window.fourth = 0 ∧ [0, 1] <+: fullFrame

instance decidableStraddles (window : StartCodeBuffer) (fullFrame : List UInt8) :
    Decidable (Straddles window fullFrame) :=
  inferInstanceAs (Decidable (_ ∨ _))

-- No unit is shorter than its header, and no start code lies across two frames.
def Readable (state : Option AnnexBSplitter) (fullFrame : List UInt8) : Prop :=
  ∀ splitter ∈ state, (∀ nal ∈ nalsOf fullFrame, headerSize ≤ nal.length) ∧
    ¬ Straddles splitter.startCodeBuffer fullFrame

def initial : Option AnnexBSplitter := some (.new [])

end Frames

namespace H264Reader

def step : Option AnnexBSplitter → List UInt8 → Option AnnexBSplitter × List FrameRead :=
  AnnexB.step 1 fun header => Rtp.H264.NalHeader.parse (header.headD 0)

end H264Reader

namespace H265Reader

def step : Option AnnexBSplitter → List UInt8 → Option AnnexBSplitter × List FrameRead :=
  AnnexB.step 2 fun header => Rtp.H265.NalHeader.parse (header.getD 0 0) (header.getD 1 0)

end H265Reader

namespace AnnexBSplitter

section Loops

variable {H : Type} {headerSize : Nat} {parse : List UInt8 → H} {splitter final : AnnexBSplitter}
  {pieces : List Piece} {fuel : Nat}

theorem drain_reads {data : List AnnexBData} (reads : Reads splitter data final)
    (enough : data.length < fuel) : drain fuel splitter = final := by
  induction reads generalizing fuel with
  | ended none_ =>
    cases fuel with
    | zero => omega
    | succ fuel => rw [drain, none_]
  | unit some_ _ ih =>
    cases fuel with
    | zero => omega
    | succ fuel =>
      rw [drain, some_]
      exact ih (by simpa using enough)

-- What the reader makes of the pieces.
def nalOf (headerSize : Nat) (parse : List UInt8 → H) (piece : Piece) : Nal H :=
  { payloadRange := (piece.startCode.code.length + headerSize, piece.bytes.length)
    header := parse ((dataOf piece).slice
      (piece.startCode.code.length, piece.startCode.code.length + headerSize))
    headerRange := (piece.startCode.code.length, piece.startCode.code.length + headerSize)
    startCode := piece.startCode
    startCodeRange := (0, piece.startCode.code.length)
    full := piece.bytes }

theorem nalOf_data (piece : Piece) : (nalOf headerSize parse piece).data = piece.payload := by
  rw [Nal.data, nalOf, List.take_length, Piece.bytes, List.drop_left]

theorem readNals_reads (reads : Reads splitter (pieces.map dataOf) final)
    (enough : pieces.length < fuel) :
    readNals headerSize parse fuel splitter =
      if ∀ piece ∈ pieces, headerSize ≤ piece.payload.length then
        some (final, pieces.map (nalOf headerSize parse))
      else none := by
  induction pieces generalizing splitter fuel with
  | nil =>
    cases reads with
    | ended none_ =>
      cases fuel with
      | zero => simp at enough
      | succ fuel => simp [readNals, nextNal, none_]
  | cons piece later ih =>
    cases reads with
    | unit some_ rest =>
      cases fuel with
      | zero => simp at enough
      | succ fuel =>
        have rest := ih rest (by simpa using enough)
        have length : (dataOf piece).full.length =
            piece.startCode.code.length + piece.payload.length := List.length_append
        have range : (dataOf piece).payloadRange.1 = piece.startCode.code.length := rfl
        simp only [readNals, nextNal, some_, length, range, List.forall_mem_cons]
        by_cases short : piece.payload.length < headerSize
        · rw [if_pos (by omega), if_neg (by omega)]
        · rw [if_neg (by omega)]
          simp only [rest]
          by_cases later : ∀ piece ∈ later, headerSize ≤ piece.payload.length
          · rw [if_pos later, if_pos ⟨by omega, later⟩]
            rfl
          · rw [if_neg later, if_neg (fun both => later both.2)]
            rfl

end Loops

end AnnexBSplitter

section Straddling

variable {past fullFrame lead : List UInt8} {pieces : List Piece}

theorem clean_tailOf (maximal : Maximal lead pieces) :
    Clean (AnnexBSplitter.tailOf lead pieces).reverse := by
  induction pieces generalizing lead with
  | nil =>
    rw [Clean, List.reverse_reverse]
    exact maximal
  | cons piece later ih => exact ih maximal.2.2

theorem nalsOf_byte {byte : UInt8} {rest : List UInt8}
    (other : byte ≠ 0 ∨ rest.head? ≠ some 0) : nalsOf (byte :: rest) = nalsOf rest := by
  rw [nalsOf, StartCodes.cut_byte (StartCodes.startsAt_plain other)]
  rfl

theorem found_of_mark {window : StartCodeBuffer}
    (mark : window.second = 0 ∧ window.third = 0 ∧ window.fourth = 1) :
    ∃ startCode, window.found = some startCode := by
  rw [StartCodeBuffer.found, if_pos mark]
  split_ifs
  · exact ⟨.b4, rfl⟩
  · exact ⟨.b3, rfl⟩

-- A start code that lies across the frames is a unit more.
theorem nalsOf_straddling (clean : Clean past) (straddles : Straddles (behind past) fullFrame) :
    ((cut (past.reverse ++ fullFrame)).2.map Piece.payload).length =
      (nalsOf fullFrame).length + 1 := by
  rcases straddles with ⟨third, fourth, rest, rfl⟩ | ⟨fourth, rest, rfl⟩
  · have mark : (behind (1 :: past)).second = 0 ∧ (behind (1 :: past)).third = 0 ∧
        (behind (1 :: past)).fourth = 1 := ⟨third, fourth, rfl⟩
    obtain ⟨startCode, found⟩ := found_of_mark mark
    obtain ⟨before, -, cuts⟩ := clean.cut_found rest found
    rw [List.singleton_append, cuts, nalsOf_byte (.inl (by decide)), nalsOf]
    simp
  · -- The zero in front belongs to the frame.
    have none_ : (behind (0 :: past)).found = none := by
      rw [StartCodeBuffer.found, if_neg]
      rintro ⟨-, -, one⟩
      exact absurd one (show ¬(0 : UInt8) = 1 by decide)
    have mark : (behind (1 :: 0 :: past)).second = 0 ∧ (behind (1 :: 0 :: past)).third = 0 ∧
        (behind (1 :: 0 :: past)).fourth = 1 := ⟨fourth, rfl, rfl⟩
    obtain ⟨startCode, found⟩ := found_of_mark mark
    obtain ⟨before, -, cuts⟩ := (clean.cons none_).cut_found rest found
    rw [List.reverse_cons, List.append_assoc] at cuts
    change cut (past.reverse ++ 0 :: 1 :: rest) = _ at cuts
    change ((cut (past.reverse ++ 0 :: 1 :: rest)).2.map Piece.payload).length =
      (nalsOf (0 :: 1 :: rest)).length + 1
    rw [cuts, nalsOf_byte (.inr (by simp)), nalsOf_byte (.inl (by decide)), nalsOf]
    simp

-- No start code begins in the bytes before and ends in the frame.
theorem clean_append (clean : Clean past) (apart : ¬ Straddles (behind past) fullFrame)
    (front : lead <+: fullFrame) (own : ¬ mark <:+: lead) : ¬ mark <:+: past.reverse ++ lead := by
  intro found
  rcases List.infix_append_iff.mp found with before | inside | ⟨left, right, split, ends, starts⟩
  · exact clean before
  · exact own inside
  · match left with
    | [] =>
      rw [List.nil_append] at split
      exact own (split ▸ starts.isInfix)
    | [a] =>
      obtain ⟨rfl, rfl⟩ := List.cons.inj split
      obtain ⟨rest, same⟩ := ends
      have past_ : past = 0 :: rest.reverse := by
        have back := congrArg List.reverse same
        simpa using back.symm
      exact apart (.inr ⟨by rw [past_]; rfl, starts.trans front⟩)
    | [a, b] =>
      obtain ⟨rfl, behind_⟩ := List.cons.inj split
      obtain ⟨rfl, rfl⟩ := List.cons.inj behind_
      obtain ⟨rest, same⟩ := ends
      have past_ : past = 0 :: 0 :: rest.reverse := by
        have back := congrArg List.reverse same
        simpa using back.symm
      exact apart (.inl ⟨by rw [past_]; rfl, by rw [past_]; rfl, starts.trans front⟩)
    | a :: b :: c :: more =>
      have all : a :: b :: c :: more = mark := by
        have lengths := congrArg List.length split
        cases more with
        | nil =>
          cases right with
          | nil => simpa using split.symm
          | cons => simp [mark] at lengths
        | cons => simp [mark] at lengths
      exact clean (all ▸ ends).isInfix

theorem nalsOf_apart (clean : Clean past) (apart : ¬ Straddles (behind past) fullFrame) :
    (cut (past.reverse ++ fullFrame)).2.map Piece.payload = nalsOf fullFrame := by
  obtain ⟨whole, maximal⟩ := StartCodes.cut_decomposes fullFrame
  rw [nalsOf]
  generalize (cut fullFrame).1 = lead, (cut fullFrame).2 = pieces at whole maximal ⊢
  have still := clean_append clean apart ⟨_, whole.symm⟩ maximal.clean
  cases pieces with
  | nil =>
    have same : cut (past.reverse ++ lead ++ joined []) = (past.reverse ++ lead, []) :=
      StartCodes.cut_of_maximal still
    rw [whole, ← List.append_assoc, same]
  | cons piece later =>
    by_cases taken : piece.startCode = .b3 ∧ lead = [] ∧ past.reverse.getLast? = some 0
    · -- The zero at the end of the bytes before makes the start code a longer one.
      obtain ⟨short, rfl, zero⟩ := taken
      obtain ⟨before, same⟩ := List.getLast?_eq_some_iff.mp zero
      have longer : Maximal before (⟨.b4, piece.payload⟩ :: later) := by
        have front : ¬ mark <:+: before := by
          intro inside
          rw [Clean, same] at clean
          exact clean (inside.trans (List.prefix_append _ _).isInfix)
        exact ⟨front, fun other => StartCode.noConfusion other, maximal.2.2⟩
      have cuts := StartCodes.cut_of_maximal longer
      have equal : before ++ joined (⟨.b4, piece.payload⟩ :: later) = past.reverse ++ fullFrame := by
        rw [whole, same, StartCodes.joined_cons, StartCodes.joined_cons, short]
        simp [StartCode.code]
      rw [← equal, cuts]
      rfl
    · have maximal' : Maximal (past.reverse ++ lead) (piece :: later) := by
        refine ⟨still, fun short last => ?_, maximal.2.2⟩
        rw [List.getLast?_append, Option.or_eq_some_iff] at last
        rcases last with own | ⟨none_, zero⟩
        · exact maximal.2.1 short own
        · exact taken ⟨short, List.getLast?_eq_none_iff.mp none_, zero⟩
      rw [whole, ← List.append_assoc, StartCodes.cut_of_maximal maximal']

theorem length_nalsOf (fullFrame : List UInt8) : (nalsOf fullFrame).length ≤ fullFrame.length := by
  have whole := congrArg List.length (StartCodes.cut_decomposes fullFrame).whole
  have each : ∀ pieces : List Piece, pieces.length ≤ (joined pieces).length := by
    intro pieces
    induction pieces with
    | nil => rfl
    | cons piece later ih =>
      have positive := StartCodes.code_length_pos piece.startCode
      simp only [StartCodes.joined_cons, List.length_append, List.length_cons]
      omega
  rw [List.length_append] at whole
  have pieces := each (cut fullFrame).2
  rw [nalsOf, List.length_map]
  omega

end Straddling

section Steps

open AnnexBSplitter

variable {H : Type} (headerSize : Nat) (parse : List UInt8 → H) {past : List UInt8}

-- Between two frames the window is as the end of the last frame left it.
def Between (state : Option AnnexBSplitter) : Prop :=
  ∀ splitter ∈ state, ∃ past, Clean past ∧ splitter = idle past []

theorem reset_idle (clean : Clean past) (fullFrame : List UInt8) :
    (idle past []).reset fullFrame = idle past fullFrame := by
  rw [reset, drain_reads (.ended (next_idle clean)) (by simp)]
  rfl

-- What a frame is read as behind the bytes that the window has seen.
theorem step_idle (clean : Clean past) (fullFrame : List UInt8) :
    ∃ last, Clean last ∧ step headerSize parse (some (idle past [])) fullFrame =
      if ∀ piece ∈ (cut (past.reverse ++ fullFrame)).2, headerSize ≤ piece.payload.length then
        (some (idle last []), [.nals fullFrame
          ((cut (past.reverse ++ fullFrame)).2.map Piece.payload)])
      else (none, [.panicked fullFrame]) := by
  obtain ⟨lead, pieces, cuts⟩ : ∃ lead pieces, cut (past.reverse ++ fullFrame) = (lead, pieces) :=
    ⟨_, _, rfl⟩
  have maximal := (StartCodes.cut_decomposes (past.reverse ++ fullFrame)).maximal
  have enough : (cut (past.reverse ++ fullFrame)).2.length < fullFrame.length + 2 := by
    have own := length_nalsOf fullFrame
    rw [← List.length_map (Piece.payload)]
    by_cases straddles : Straddles (behind past) fullFrame
    · rw [nalsOf_straddling clean straddles]
      omega
    · rw [nalsOf_apart clean straddles]
      omega
  rw [cuts] at maximal enough ⊢
  refine ⟨_, clean_tailOf maximal, ?_⟩
  rw [step, readFrame, reset_idle clean, readNals_reads (reads_idle clean cuts) enough]
  by_cases readable : ∀ piece ∈ pieces, headerSize ≤ piece.payload.length
  · rw [if_pos readable, if_pos readable]
    have data : (Nal.data ∘ nalOf headerSize parse) = Piece.payload := funext nalOf_data
    simp only [List.map_map, data]
  · rw [if_neg readable, if_neg readable]

theorem Between.step {state : Option AnnexBSplitter} (between : Between state)
    (fullFrame : List UInt8) : Between (AnnexB.step headerSize parse state fullFrame).1 := by
  cases state with
  | none => exact fun _ member => nomatch member
  | some splitter =>
    obtain ⟨past, clean, rfl⟩ := between splitter rfl
    obtain ⟨last, still, steps⟩ := step_idle headerSize parse clean fullFrame
    rw [steps]
    split_ifs
    · exact fun splitter same => ⟨last, still, (Option.some.inj same).symm⟩
    · exact fun _ member => nomatch member

-- The step reads a frame as it is by itself exactly if no unit is short and none straddles.
theorem Between.independent_iff {state : Option AnnexBSplitter} (between : Between state)
    (fullFrame : List UInt8) :
    (∀ read ∈ (AnnexB.step headerSize parse state fullFrame).2, read.Independent) ↔
      Readable headerSize state fullFrame := by
  cases state with
  | none => exact iff_of_true (fun _ member => nomatch member) fun _ member => nomatch member
  | some splitter =>
    obtain ⟨past, clean, rfl⟩ := between splitter rfl
    obtain ⟨last, -, steps⟩ := step_idle headerSize parse clean fullFrame
    have readable : Readable headerSize (some (idle past [])) fullFrame ↔
        (∀ nal ∈ nalsOf fullFrame, headerSize ≤ nal.length) ∧
          ¬ Straddles (behind past) fullFrame :=
      ⟨fun each => each _ rfl, fun both splitter same => Option.some.inj same ▸ both⟩
    rw [steps, readable]
    by_cases straddles : Straddles (behind past) fullFrame
    · have more := nalsOf_straddling clean straddles
      refine iff_of_false (fun independent => ?_) fun both => both.2 straddles
      split_ifs at independent
      · have same : _ = nalsOf fullFrame := independent _ (List.mem_singleton_self _)
        rw [same] at more
        omega
      · exact independent _ (List.mem_singleton_self _)
    · have same := nalsOf_apart clean straddles
      have sizes : (∀ piece ∈ (cut (past.reverse ++ fullFrame)).2,
          headerSize ≤ piece.payload.length) ↔ ∀ nal ∈ nalsOf fullFrame, headerSize ≤ nal.length := by
        rw [← same, List.forall_mem_map]
      simp only [sizes, same]
      by_cases long : ∀ nal ∈ nalsOf fullFrame, headerSize ≤ nal.length
      · rw [if_pos long]
        refine iff_of_true (fun read member => ?_) ⟨long, straddles⟩
        obtain rfl := List.mem_singleton.mp member
        rfl
      · rw [if_neg long]
        refine iff_of_false (fun independent => ?_) fun both => long both.1
        exact independent _ (List.mem_singleton_self _)

theorem initial_between : Between initial := by
  exact fun splitter same => ⟨[], by simp [Clean, mark], (Option.some.inj same).symm⟩

/-- With either reader, every frame of a run is read as it is by itself and no range is exceeded,
exactly if each frame is readable where it comes. -/
theorem reads_independent_iff (frames : List (List UInt8)) :
    ((∀ read ∈ (Runs.run H264Reader.step initial frames).2, read.Independent) ↔
      Runs.Along H264Reader.step (fun _ => Readable 1) [] initial frames) ∧
    ((∀ read ∈ (Runs.run H265Reader.step initial frames).2, read.Independent) ↔
      Runs.Along H265Reader.step (fun _ => Readable 2) [] initial frames) := by
  have general : ∀ {H : Type} (headerSize : Nat) (parse : List UInt8 → H),
      (∀ read ∈ (Runs.run (step headerSize parse) initial frames).2, read.Independent) ↔
        Runs.Along (step headerSize parse) (fun _ => Readable headerSize) [] initial frames := by
    intro H headerSize parse
    rw [← Runs.emissionsAfter_each FrameRead.Independent []]
    refine Runs.emissions_run_iff (step headerSize parse) (fun _ => Between)
      (fun _ _ fullFrame between => between.step headerSize parse fullFrame) (fun seen state fullFrame between => ?_)
      frames initial_between
    rw [Runs.emissionsAfter_each, between.independent_iff headerSize parse]
  exact ⟨general 1 _, general 2 _⟩

-- The second frame starts with the end of a start code, and the other one is a start code alone.
theorem reads_not_independent :
    ¬ (∀ read ∈ (Runs.run H264Reader.step initial [[0, 0, 1, 0x65, 0, 0], [1, 0x42]]).2,
      read.Independent) ∧
    (Runs.run H264Reader.step initial [[0, 0, 1]]).2 = [.panicked [0, 0, 1]] ∧
    (Runs.run H265Reader.step initial [[0, 0, 1, 0x26]]).2 = [.panicked [0, 0, 1, 0x26]] := by
  decide +kernel

end Steps

end AnnexB

end BetterParsec
