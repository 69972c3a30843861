import BetterParsec.Library.StartCodes

set_option autoImplicit false
set_option linter.all false

/-!
# The Annex B splitter

`AnnexBSplitter` of `webrtc/video/annexb.rs`, which reads a stream byte by byte
through a window of four bytes and hands out the units with their start codes.
-/

namespace BetterParsec

namespace AnnexB

open StartCodes (StartCode Piece joined mark cut Maximal Decomposes fromFirst)

-- The last four bytes.
structure StartCodeBuffer where
  first : UInt8
  second : UInt8
  third : UInt8
  fourth : UInt8
  deriving DecidableEq

def StartCodeBuffer.reset : StartCodeBuffer := ⟨2, 2, 2, 2⟩

def StartCodeBuffer.push (buffer : StartCodeBuffer) (byte : UInt8) : StartCodeBuffer :=
  ⟨buffer.second, buffer.third, buffer.fourth, byte⟩

def StartCodeBuffer.found (buffer : StartCodeBuffer) : Option StartCode :=
  if buffer.second = 0 ∧ buffer.third = 0 ∧ buffer.fourth = 1 then
    if buffer.first = 0 then some .b4 else some .b3
  else none

structure AnnexBData where
  payloadRange : Nat × Nat
  startCode : StartCode
  startCodeRange : Nat × Nat
  full : List UInt8
  deriving DecidableEq

-- A reader is what it has left to yield.
structure AnnexBSplitter where
  reader : List UInt8
  startCodeBuffer : StartCodeBuffer
  currentStartCode : Option StartCode
  buffer : List UInt8
  deriving DecidableEq

namespace AnnexBSplitter

def new (reader : List UInt8) : AnnexBSplitter := ⟨reader, .reset, none, []⟩

-- The loop: the start code that was found, and what is left of the reader, the window and the
-- buffer.
def scan (bufferBytes : Bool) : List UInt8 → StartCodeBuffer → List UInt8 →
    Option StartCode × List UInt8 × StartCodeBuffer × List UInt8
  | [], window, buffer => (window.found, [], window, buffer)
  | byte :: reader, window, buffer =>
      match window.found with
      | some startCode => (some startCode, byte :: reader, window, buffer)
      | none =>
          scan bufferBytes reader (window.push byte)
            (if bufferBytes then buffer ++ [byte] else buffer)

def nextAnnexBStartCode (splitter : AnnexBSplitter) (bufferBytes : Bool) :
    AnnexBSplitter × Option StartCode :=
  let (found, reader, window, buffer) :=
    scan bufferBytes splitter.reader splitter.startCodeBuffer splitter.buffer
  ({ splitter with reader, startCodeBuffer := window, buffer }, found)

-- The start code of the unit that is read next, looked for where none is known.
def startUnit (splitter : AnnexBSplitter) : AnnexBSplitter × Option StartCode :=
  match splitter.currentStartCode with
  | some startCode => (splitter, some startCode)
  | none =>
      match splitter.nextAnnexBStartCode false with
      | (next, some startCode) =>
          ({ next with
              currentStartCode := some startCode
              startCodeBuffer := .reset
              buffer := next.buffer ++ startCode.code }, some startCode)
      | (next, none) => (next, none)

def next (splitter : AnnexBSplitter) : AnnexBSplitter × Option AnnexBData :=
  match splitter.startUnit with
  | (begun, none) => (begun, none)
  | (begun, some startCode) =>
      match begun.nextAnnexBStartCode true with
      | (ended, none) =>
          ({ ended with currentStartCode := none, buffer := [] },
            some ⟨(startCode.code.length, ended.buffer.length), startCode,
              (0, startCode.code.length), ended.buffer⟩)
      | (ended, some nextStartCode) =>
          let full := ended.buffer.take (ended.buffer.length - nextStartCode.code.length)
          ({ ended with
              currentStartCode := some nextStartCode
              buffer := nextStartCode.code
              startCodeBuffer := .reset },
            some ⟨(startCode.code.length, full.length), startCode,
              (0, startCode.code.length), full⟩)

-- `next` is called until it returns `Ok(None)`.
inductive Reads : AnnexBSplitter → List AnnexBData → AnnexBSplitter → Prop where
  | ended {splitter final : AnnexBSplitter} (none_ : splitter.next = (final, none)) :
      Reads splitter [] final
  | unit {splitter middle final : AnnexBSplitter} {data : AnnexBData} {later : List AnnexBData}
      (some_ : splitter.next = (middle, some data)) (rest : Reads middle later final) :
      Reads splitter (data :: later) final

theorem Reads.unique {splitter first second : AnnexBSplitter} {data others : List AnnexBData}
    (reads : Reads splitter data first) (again : Reads splitter others second) :
    data = others ∧ first = second := by
  induction reads generalizing others second with
  | ended none_ =>
    cases again with
    | ended => simp_all
    | unit some_ => simp [none_] at some_
  | unit some_ _ ih =>
    cases again with
    | ended none_ => simp [some_] at none_
    | unit again_ rest =>
      obtain ⟨rfl, same⟩ := Prod.mk.inj (some_.symm.trans again_)
      obtain rfl := Option.some.inj same
      obtain ⟨rfl, rfl⟩ := ih rest
      exact ⟨rfl, rfl⟩

end AnnexBSplitter

-- The bytes of a range of `full`.
def AnnexBData.slice (data : AnnexBData) (range : Nat × Nat) : List UInt8 :=
  (data.full.take range.2).drop range.1

def AnnexBData.piece (data : AnnexBData) : Piece := ⟨data.startCode, data.slice data.payloadRange⟩

-- The ranges cut the bytes into a start code and a payload.
def AnnexBData.Whole (data : AnnexBData) : Prop :=
  data.slice data.startCodeRange = data.startCode.code ∧ data.full = data.piece.bytes

section Window

-- The window behind the bytes that were read since it was reset, the latest one first.
def behind : List UInt8 → StartCodeBuffer
  | [] => .reset
  | byte :: past => (behind past).push byte

def Clean (past : List UInt8) : Prop := ¬ mark <:+: past.reverse

variable {past : List UInt8} {startCode : StartCode}

theorem StartCodeBuffer.of_found {window : StartCodeBuffer}
    (found : window.found = some startCode) :
    (window.second = 0 ∧ window.third = 0 ∧ window.fourth = 1) ∧
      (startCode = .b4 ∧ window.first = 0 ∨ startCode = .b3 ∧ window.first ≠ 0) := by
  rw [StartCodeBuffer.found] at found
  split_ifs at found with mark zero
  · exact ⟨mark, .inl ⟨(Option.some.inj found).symm, zero⟩⟩
  · exact ⟨mark, .inr ⟨(Option.some.inj found).symm, zero⟩⟩

theorem StartCodeBuffer.of_not_found {window : StartCodeBuffer} (found : window.found = none) :
    ¬(window.second = 0 ∧ window.third = 0 ∧ window.fourth = 1) := by
  intro mark
  rw [StartCodeBuffer.found, if_pos mark] at found
  split_ifs at found

theorem found_behind_some (found : (behind past).found = some startCode) :
    ∃ before, past.reverse = before ++ startCode.code ∧
      (startCode = .b3 → before.getLast? ≠ some 0) := by
  obtain ⟨⟨second, third, fourth⟩, kind⟩ := StartCodeBuffer.of_found found
  match past with
  | [] | [_] | [_, _] => exact absurd second (show ¬(2 : UInt8) = 0 by decide)
  | [c, b, a] =>
    obtain rfl : a = 0 := second
    obtain rfl : b = 0 := third
    obtain rfl : c = 1 := fourth
    rcases kind with ⟨-, zero⟩ | ⟨rfl, -⟩
    · exact absurd zero (show ¬(2 : UInt8) = 0 by decide)
    · exact ⟨[], rfl, fun _ => by simp⟩
  | d :: c :: b :: a :: past =>
    obtain rfl : b = 0 := second
    obtain rfl : c = 0 := third
    obtain rfl : d = 1 := fourth
    rcases kind with ⟨rfl, zero⟩ | ⟨rfl, other⟩
    · obtain rfl : a = 0 := zero
      exact ⟨past.reverse, by simp [StartCode.code], fun short => nomatch short⟩
    · change a ≠ 0 at other
      refine ⟨past.reverse ++ [a], by simp [StartCode.code], fun _ last => other ?_⟩
      simpa using last

theorem found_behind_none (found : (behind past).found = none) : ¬ mark <:+ past.reverse := by
  rintro ⟨before, same⟩
  obtain rfl : past = 1 :: 0 :: 0 :: before.reverse := by
    have back := congrArg List.reverse same
    rw [List.reverse_reverse] at back
    rw [← back]
    simp [mark]
  exact StartCodeBuffer.of_not_found found ⟨rfl, rfl, rfl⟩

theorem Clean.found (clean : Clean past) : (behind past).found = none := by
  by_contra found
  obtain ⟨startCode, found⟩ := Option.ne_none_iff_exists'.mp found
  obtain ⟨before, same, -⟩ := found_behind_some found
  apply clean
  rw [same]
  cases startCode with
  | b3 => exact ⟨before, [], by simp [mark, StartCode.code]⟩
  | b4 => exact ⟨before ++ [0], [], by simp [mark, StartCode.code]⟩

theorem Clean.cons {byte : UInt8} (clean : Clean past)
    (none_ : (behind (byte :: past)).found = none) : Clean (byte :: past) := by
  intro inside
  rw [List.reverse_cons, List.infix_concat_iff] at inside
  rcases inside with last | earlier
  · exact found_behind_none none_ (by rwa [List.reverse_cons])
  · exact clean earlier

-- Where the window finds a start code, the cut does.
theorem Clean.cut_found {byte : UInt8} (clean : Clean past) (reader : List UInt8)
    (found : (behind (byte :: past)).found = some startCode) :
    ∃ before, past.reverse ++ [byte] = before ++ startCode.code ∧
      cut (past.reverse ++ byte :: reader) =
        (before, ⟨startCode, (cut reader).1⟩ :: (cut reader).2) := by
  obtain ⟨before, same, short⟩ := found_behind_some found
  rw [List.reverse_cons] at same
  refine ⟨before, same, ?_⟩
  have tail := StartCodes.cut_decomposes reader
  have front : before <+: past.reverse := by
    have longer : before <+: past.reverse ++ [byte] := same ▸ List.prefix_append before _
    refine List.prefix_of_prefix_length_le longer (List.prefix_append _ _) ?_
    have lengths := congrArg List.length same
    have positive := StartCodes.code_length_pos startCode
    simp only [List.length_append, List.length_singleton] at lengths
    omega
  have maximal : Maximal before (⟨startCode, (cut reader).1⟩ :: (cut reader).2) :=
    ⟨fun inside => clean (inside.trans front.isInfix), short, tail.maximal⟩
  rw [← StartCodes.cut_of_maximal maximal, StartCodes.joined_cons, ← tail.whole,
    ← List.append_assoc, ← same, List.append_assoc]
  rfl

end Window

namespace AnnexBSplitter

section Scanning

variable {past reader lead : List UInt8} {piece : Piece} {later : List Piece}
  (bufferBytes : Bool) (buffer : List UInt8)

theorem scan_found {startCode : StartCode} {window : StartCodeBuffer}
    (found : window.found = some startCode) :
    scan bufferBytes reader window buffer = (some startCode, reader, window, buffer) := by
  cases reader with
  | nil => rw [scan, found]
  | cons byte reader => rw [scan, found]

-- The reader ends before a start code.
theorem scan_none (clean : Clean past) (ends : (cut (past.reverse ++ reader)).2 = []) :
    scan bufferBytes reader (behind past) buffer =
        (none, [], behind (reader.reverse ++ past), if bufferBytes then buffer ++ reader else buffer) ∧
      Clean (reader.reverse ++ past) := by
  induction reader generalizing past buffer with
  | nil =>
    refine ⟨?_, clean⟩
    rw [scan, clean.found]
    simp
  | cons byte reader ih =>
    cases found : (behind (byte :: past)).found with
    | some startCode =>
      obtain ⟨before, -, cuts⟩ := clean.cut_found reader found
      rw [cuts] at ends
      exact nomatch ends
    | none =>
      have ends' : (cut ((byte :: past).reverse ++ reader)).2 = [] := by
        rwa [List.reverse_cons, List.append_assoc]
      obtain ⟨scans, still⟩ := ih _ (clean.cons found) ends'
      rw [scan, clean.found]
      refine ⟨scans.trans ?_, by simpa using still⟩
      cases bufferBytes <;> simp

-- The reader stops behind the next start code.
theorem scan_some (clean : Clean past)
    (cuts : cut (past.reverse ++ reader) = (lead, piece :: later)) :
    ∃ consumed window, reader = consumed ++ (piece.payload ++ joined later) ∧
      past.reverse ++ consumed = lead ++ piece.startCode.code ∧
      scan bufferBytes reader (behind past) buffer =
        (some piece.startCode, piece.payload ++ joined later, window,
          if bufferBytes then buffer ++ consumed else buffer) := by
  induction reader generalizing past buffer with
  | nil =>
    rw [List.append_nil] at cuts
    have whole : cut (past.reverse ++ joined []) = (past.reverse, []) :=
      StartCodes.cut_of_maximal clean
    rw [joined, List.flatMap_nil, List.append_nil, cuts] at whole
    exact absurd (Prod.mk.inj whole).2 (List.cons_ne_nil piece later)
  | cons byte reader ih =>
    cases found : (behind (byte :: past)).found with
    | some startCode =>
      obtain ⟨before, same, found'⟩ := clean.cut_found reader found
      obtain ⟨rfl, sameCut⟩ := Prod.mk.inj (found'.symm.trans cuts)
      obtain ⟨rfl, rfl⟩ := List.cons.inj sameCut
      have rest := (StartCodes.cut_decomposes reader).whole
      refine ⟨[byte], behind (byte :: past), ?_, same, ?_⟩
      · rw [List.singleton_append]
        exact congrArg (byte :: ·) rest
      · rw [scan, clean.found]
        refine (scan_found bufferBytes _ found).trans ?_
        rw [← rest]
    | none =>
      have cuts' : cut ((byte :: past).reverse ++ reader) = (lead, piece :: later) := by
        rwa [List.reverse_cons, List.append_assoc]
      obtain ⟨consumed, window, rest, same, scans⟩ := ih _ (clean.cons found) cuts'
      refine ⟨byte :: consumed, window, by rw [rest, List.cons_append], ?_, ?_⟩
      · rw [← same, List.reverse_cons, List.append_assoc]
        rfl
      · rw [scan, clean.found]
        refine scans.trans ?_
        cases bufferBytes <;> simp

end Scanning

-- Between two streams: what the window saw of the last one.
def idle (past reader : List UInt8) : AnnexBSplitter := ⟨reader, behind past, none, []⟩

-- The start code of a unit was read.
def within (startCode : StartCode) (reader : List UInt8) : AnnexBSplitter :=
  ⟨reader, .reset, some startCode, startCode.code⟩

def dataOf (piece : Piece) : AnnexBData :=
  ⟨(piece.startCode.code.length, piece.bytes.length), piece.startCode,
    (0, piece.startCode.code.length), piece.bytes⟩

-- What stands behind the last start code.
def tailOf (lead : List UInt8) : List Piece → List UInt8
  | [] => lead
  | piece :: later => tailOf piece.payload later

section Reading

variable {past reader lead : List UInt8} {piece : Piece} {pieces later : List Piece}

theorem nextAnnexBStartCode_none (splitter : AnnexBSplitter) (bufferBytes : Bool)
    (window : splitter.startCodeBuffer = behind past) (clean : Clean past)
    (ends : (cut (past.reverse ++ splitter.reader)).2 = []) :
    splitter.nextAnnexBStartCode bufferBytes =
      (⟨[], behind (splitter.reader.reverse ++ past), splitter.currentStartCode,
        if bufferBytes then splitter.buffer ++ splitter.reader else splitter.buffer⟩, none) := by
  rw [nextAnnexBStartCode, window, (scan_none bufferBytes splitter.buffer clean ends).1]

theorem next_within_last (clean : ¬ mark <:+: piece.payload) :
    (within piece.startCode piece.payload).next =
      (idle piece.payload.reverse [], some (dataOf piece)) := by
  have ends : (cut ((([] : List UInt8)).reverse ++ piece.payload)).2 = [] := by
    have whole : cut (piece.payload ++ joined []) = (piece.payload, []) :=
      StartCodes.cut_of_maximal clean
    rw [joined, List.flatMap_nil, List.append_nil] at whole
    rw [List.reverse_nil, List.nil_append, whole]
  have fresh : Clean [] := by simp [Clean, mark]
  have read := nextAnnexBStartCode_none (within piece.startCode piece.payload) true rfl fresh ends
  simp only [next, startUnit, within] at read ⊢
  rw [read]
  simp [idle, dataOf, Piece.bytes]

theorem next_within {following : Piece} (maximal : Maximal piece.payload (following :: later)) :
    (within piece.startCode (piece.payload ++ joined (following :: later))).next =
      (within following.startCode (following.payload ++ joined later), some (dataOf piece)) := by
  have cuts := StartCodes.cut_of_maximal maximal
  have fresh : Clean [] := by simp [Clean, mark]
  obtain ⟨consumed, window, rest, same, scans⟩ := scan_some true piece.startCode.code fresh cuts
  have same : consumed = piece.payload ++ following.startCode.code := same
  have scans : scan true (piece.payload ++ joined (following :: later)) .reset
      piece.startCode.code = (some following.startCode, following.payload ++ joined later, window,
        piece.startCode.code ++ consumed) := scans
  simp only [next, startUnit, within, nextAnnexBStartCode, scans]
  have full : (piece.startCode.code ++ consumed).take
      ((piece.startCode.code ++ consumed).length - following.startCode.code.length) =
        piece.bytes := by
    rw [same, ← List.append_assoc, List.length_append, Nat.add_sub_cancel]
    exact List.take_left
  rw [full]
  rfl

theorem next_idle (clean : Clean past) : (idle past []).next = (idle past [], none) := by
  have found : (behind past).found = none := clean.found
  simp only [next, startUnit, idle, nextAnnexBStartCode, scan, found]

theorem reads_within (maximal : Maximal piece.payload later) :
    Reads (within piece.startCode (piece.payload ++ joined later))
      ((piece :: later).map dataOf) (idle (tailOf piece.payload later).reverse []) := by
  induction later generalizing piece with
  | nil =>
    have clean : Clean piece.payload.reverse := by
      rw [Clean, List.reverse_reverse]
      exact maximal
    rw [joined, List.flatMap_nil, List.append_nil]
    exact .unit (next_within_last maximal) (.ended (next_idle clean))
  | cons following later ih => exact .unit (next_within maximal) (ih maximal.2.2)

-- The first start code is looked for, and the first unit is read behind it.
theorem next_idle_some (clean : Clean past)
    (cuts : cut (past.reverse ++ reader) = (lead, piece :: later)) :
    (idle past reader).next = (within piece.startCode (piece.payload ++ joined later)).next := by
  obtain ⟨consumed, window, -, -, scans⟩ := scan_some false [] clean cuts
  have scans : scan false reader (behind past) [] =
      (some piece.startCode, piece.payload ++ joined later, window, []) := scans
  simp only [next, startUnit, idle, within, nextAnnexBStartCode, scans, List.nil_append]

theorem next_idle_none (clean : Clean past) (cuts : cut (past.reverse ++ reader) = (lead, [])) :
    (idle past reader).next = (idle lead.reverse [], none) := by
  have whole := (StartCodes.cut_decomposes (past.reverse ++ reader)).whole
  rw [cuts, joined, List.flatMap_nil, List.append_nil] at whole
  have back : reader.reverse ++ past = lead.reverse := by
    have whole : past.reverse ++ reader = lead := whole
    rw [← whole, List.reverse_append, List.reverse_reverse]
  obtain ⟨scans, -⟩ := scan_none false [] clean (congrArg Prod.snd cuts)
  simp only [next, startUnit, idle, nextAnnexBStartCode, scans, back]
  rfl

/-- All units of a stream, of which the window may have seen the beginning before. -/
theorem reads_idle (clean : Clean past) (cuts : cut (past.reverse ++ reader) = (lead, pieces)) :
    Reads (idle past reader) (pieces.map dataOf) (idle (tailOf lead pieces).reverse []) := by
  cases pieces with
  | nil => exact .ended (next_idle_none clean cuts)
  | cons piece later =>
    have maximal := (StartCodes.cut_decomposes (past.reverse ++ reader)).maximal
    rw [cuts] at maximal
    have first := next_idle_some clean cuts
    cases reads_within maximal.2.2 with
    | unit some_ rest => exact .unit (first.trans some_) rest

end Reading

theorem piece_dataOf (piece : Piece) : (dataOf piece).piece = piece := by
  have payload : (dataOf piece).slice (dataOf piece).payloadRange = piece.payload := by
    rw [AnnexBData.slice, dataOf, List.take_length, Piece.bytes, List.drop_left]
  rw [AnnexBData.piece, payload]
  rfl

theorem whole_dataOf (piece : Piece) : (dataOf piece).Whole := by
  refine ⟨?_, by rw [piece_dataOf]; rfl⟩
  simp [AnnexBData.slice, dataOf, Piece.bytes]

/-- A fresh splitter returns the units of its input from the first start code on, and nothing else;
they are the only maximal decomposition of it. -/
theorem splits_maximal (input : List UInt8) :
    ∃ data final, Reads (.new input) data final ∧ (∀ unit ∈ data, unit.Whole) ∧
      joined (data.map AnnexBData.piece) = fromFirst input ∧
      (∀ unit ∈ data, ¬ mark <:+: unit.piece.payload) ∧
      (∃ lead, Decomposes input lead (data.map AnnexBData.piece)) ∧
      ∀ lead pieces, Decomposes input lead pieces → pieces = data.map AnnexBData.piece := by
  have decomposes := StartCodes.cut_decomposes input
  have cuts : cut ((([] : List UInt8)).reverse ++ input) = ((cut input).1, (cut input).2) := rfl
  have fresh : Clean [] := by simp [Clean, mark]
  have pieces : ((cut input).2.map dataOf).map AnnexBData.piece = (cut input).2 := by
    rw [List.map_map]
    exact (List.map_congr_left fun piece _ => piece_dataOf piece).trans (List.map_id _)
  refine ⟨_, _, reads_idle fresh cuts, ?_, ?_, ?_, ?_, ?_⟩
  · intro unit member
    obtain ⟨piece, -, rfl⟩ := List.mem_map.mp member
    exact whole_dataOf piece
  · rw [pieces]
    exact StartCodes.joined_cut input
  · intro unit member
    obtain ⟨piece, inside, rfl⟩ := List.mem_map.mp member
    rw [piece_dataOf]
    exact decomposes.maximal.clean_payload piece inside
  · rw [pieces]
    exact ⟨_, decomposes⟩
  · intro lead others other
    rw [pieces, other.cut_eq]

end AnnexBSplitter

end AnnexB

end BetterParsec
