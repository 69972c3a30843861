import BetterParsec.Fec.Delivery
import BetterParsec.Video.Order
import BetterParsec.Video.Sender

set_option autoImplicit false
set_option linter.all false

/-!
# Frame fidelity

The source messages of a stream of frames, lost, repeated and reordered in any
way, never make the receiver emit a frame that was not sent; and a frame none of
whose messages is lost comes out with the last of them.
-/

namespace BetterParsec

-- What is collected under a frame's id belongs to that frame.
structure SenderFrame.Assembles (frame : SenderFrame) (pending : PendingFrame) : Prop where
  isV2 : pending.isV2 = true
  isKey : pending.isKey = frame.isKey
  timestampUs : pending.timestampUs = frame.timestampUs
  chunkCount : pending.chunkCount = UInt16.ofNat frame.chunkCount
  encodedFrameLen : pending.encodedFrameLen = UInt32.ofNat frame.data.length
  encodedFrameCrc32 : pending.encodedFrameCrc32 = ieeeCrc32 frame.data
  slots : pending.parts.length = frame.chunkCount
  fragments : ∀ (number : Nat) (part : List UInt8),
    pending.parts[number]? = some (some part) → part = fragmentAt frame.data number

theorem PendingFrame.joinParts_eq {parts : List (Option (List UInt8))} {data : List UInt8}
    {fragment : Nat → List UInt8} (joined : joinParts parts = some data)
    (fragments : ∀ (number : Nat) (part : List UInt8),
      parts[number]? = some (some part) → part = fragment number) :
    data = ((List.range parts.length).map fragment).flatten := by
  induction parts generalizing data fragment with
  | nil => simpa [joinParts] using joined.symm
  | cons part rest ih =>
    cases part with
    | none => simp [joinParts] at joined
    | some bytes =>
      simp only [joinParts, Option.map_eq_some_iff] at joined
      obtain ⟨later, joined, rfl⟩ := joined
      have tail := ih joined (fun number part found =>
        fragments (number + 1) part (by simpa using found))
      rw [fragments 0 bytes rfl, tail, List.length_cons, List.range_succ_eq_map]
      simp [Function.comp_def]

namespace SenderFrame

variable {frame : SenderFrame} {pending : PendingFrame}

theorem Assembles.data (assembles : frame.Assembles pending) {data : List UInt8}
    (joined : PendingFrame.joinParts pending.parts = some data) : data = frame.data := by
  rw [PendingFrame.joinParts_eq joined assembles.fragments, assembles.slots]
  exact flatten_fragments frame.data

variable {index number : Nat}

theorem assembles_openFrame (fits : frame.data.length ≤ encodedFrameMax) :
    frame.Assembles ((frame.chunk index number).openFrame true) := by
  constructor
  case slots => exact List.length_replicate.trans (toNat_chunkCount fits)
  case fragments =>
    intro place part found
    simp [Chunk.openFrame, List.getElem?_replicate] at found
  all_goals rfl

theorem Assembles.store (assembles : frame.Assembles pending)
    (fits : frame.data.length ≤ encodedFrameMax) (inside : number < frame.chunkCount)
    (viaFec : Bool) :
    frame.Assembles (pending.store (frame.chunk index number) viaFec) := by
  have place := toNat_number fits inside
  constructor
  case slots => simpa [PendingFrame.store] using assembles.slots
  case fragments =>
    intro other part found
    simp only [PendingFrame.store, chunk, place, List.getElem?_set] at found
    split_ifs at found with same
    · simp only [Option.some.injEq] at found
      rw [← found, same]
    · exact assembles.fragments other part found
  case isV2 => exact assembles.isV2
  case isKey => exact assembles.isKey
  case timestampUs => exact assembles.timestampUs
  case chunkCount => exact assembles.chunkCount
  case encodedFrameLen => exact assembles.encodedFrameLen
  case encodedFrameCrc32 => exact assembles.encodedFrameCrc32

end SenderFrame

def unitsOf (events : List RxEvent) : List DecodeUnit :=
  events.filterMap (fun event => match event with
    | .frame unit => some unit
    | .discontinuity _ _ | .ack _ => none)

@[simp] theorem unitsOf_append (first second : List RxEvent) :
    unitsOf (first ++ second) = unitsOf first ++ unitsOf second := List.filterMap_append

def DecodeUnit.Faithful (frames : List SenderFrame) (unit : DecodeUnit) : Prop :=
  ∃ frame, frames[unit.frameId.toNat]? = some frame ∧ unit.data = frame.data ∧
    unit.isKey = frame.isKey ∧ unit.timestampUs = frame.timestampUs

namespace VideoReceiver

section Stream

variable (frames : List SenderFrame)

def Cut (chunk : Chunk) : Prop :=
  ∃ (index : Nat) (frame : SenderFrame) (number : Nat), frames[index]? = some frame ∧
    number < frame.chunkCount ∧ chunk = frame.chunk index number

-- Reassembly holds parts of the frames only, and every unit emitted is one of them.
structure Faithful (seen : List RxEvent) (rx : VideoReceiver) : Prop where
  pending : ∀ (key : UInt32 × UInt32) (pending : PendingFrame),
    rx.pending.lookup key = some pending →
    ∃ frame, frames[key.2.toNat]? = some frame ∧ frame.Assembles pending
  completed : ∀ (key : UInt32 × UInt32) (found : CompletedFrame),
    rx.completed.lookup key = some found →
    ∃ frame, frames[found.frameId.toNat]? = some frame ∧ frame.Assembles found.frame
  emitted : ∀ unit, .frame unit ∈ seen → unit.Faithful frames

variable {frames} {seen emitted : List RxEvent} {rx next : VideoReceiver}

theorem Faithful.quiet (faithful : Faithful frames seen rx)
    (pending : next.pending = rx.pending ∨ next.pending = ∅)
    (completed : next.completed = rx.completed ∨ next.completed = ∅)
    (silent : ∀ event ∈ emitted, ∀ unit, event ≠ .frame unit) :
    Faithful frames (seen ++ emitted) next := by
  constructor
  case pending =>
    intro key held found
    rcases pending with same | none
    · exact faithful.pending key held (same ▸ found)
    · simp [none] at found
  case completed =>
    intro key held found
    rcases completed with same | none
    · exact faithful.completed key held (same ▸ found)
    · simp [none] at found
  case emitted =>
    intro unit member
    rcases List.mem_append.mp member with before | now
    · exact faithful.emitted unit before
    · exact absurd rfl (silent _ now unit)

variable (fits : ∀ frame ∈ frames, frame.data.length ≤ encodedFrameMax)
  (few : frames.length ≤ UInt32.size)

include few in
theorem toNat_frameId {index : Nat} {frame : SenderFrame} (found : frames[index]? = some frame)
    (number : Nat) : (frame.chunk index number).frameId.toNat = index := by
  obtain ⟨inside, -⟩ := List.getElem?_eq_some_iff.mp found
  apply UInt32.toNat_ofNat_of_lt'
  omega

include fits few

theorem Faithful.intake {epoch : UInt32} {chunks : Chunk → Prop}
    (faithful : Faithful frames seen rx) (cut : ∀ chunk, chunks chunk → Cut frames chunk)
    (move : Intake epoch true chunks rx emitted next) : Faithful frames (seen ++ emitted) next := by
  cases move with
  | discontinue => exact faithful.quiet (.inr rfl) (.inr rfl) (by simp)
  | openFrame chunk brought =>
    obtain ⟨index, frame, number, found, inside, rfl⟩ := cut chunk brought
    rw [List.append_nil]
    refine ⟨fun key held lookup => ?_, faithful.completed, faithful.emitted⟩
    simp only [openPending, Assoc.lookup_insert_some] at lookup
    obtain ⟨rfl, rfl⟩ | ⟨-, lookup⟩ := lookup
    · rw [toNat_frameId few found number]
      exact ⟨frame, found,
        SenderFrame.assembles_openFrame (fits frame (List.mem_of_getElem? found))⟩
    · exact faithful.pending key held lookup
  | store chunk old viaFec brought absent held =>
    obtain ⟨index, frame, number, found, inside, rfl⟩ := cut chunk brought
    rw [List.append_nil]
    refine ⟨fun key other lookup => ?_, faithful.completed, faithful.emitted⟩
    simp only [updatePending, Assoc.lookup_insert_some] at lookup
    obtain ⟨rfl, rfl⟩ | ⟨-, lookup⟩ := lookup
    · -- The entry under the id of the chunk is of the frame of the chunk.
      obtain ⟨same, same_found, assembles⟩ := faithful.pending _ old held
      rw [toNat_frameId few found number, found, Option.some.injEq] at same_found
      subst same_found
      rw [toNat_frameId few found number]
      exact ⟨frame, found,
        assembles.store (fits frame (List.mem_of_getElem? found)) inside viaFec⟩
    · exact faithful.pending key other lookup
  | drop frameId frame =>
    rw [List.append_nil]
    refine ⟨fun key held lookup => ?_, faithful.completed, faithful.emitted⟩
    simp only [dropFrame, Assoc.lookup_erase_some] at lookup
    exact faithful.pending key held lookup.2
  | queue frameId frame nowMs absent held =>
    rw [List.append_nil]
    refine ⟨fun key other lookup => ?_, fun key queued lookup => ?_, faithful.emitted⟩
    · simp only [queueFrame, Assoc.lookup_erase_some] at lookup
      exact faithful.pending key other lookup.2
    · simp only [queueFrame, Assoc.lookup_insert_some] at lookup
      obtain ⟨rfl, rfl⟩ | ⟨-, lookup⟩ := lookup
      · exact faithful.pending _ frame held
      · exact faithful.completed key queued lookup
  | ack nowMs =>
    obtain ⟨⟨count, time, highest, state⟩, -⟩ := rx.ackEvents_frame nowMs
    exact faithful.quiet (.inl (by rw [state])) (.inl (by rw [state]))
      (rx.ackEvents_no_frame nowMs)

omit fits few

theorem Faithful.erase (faithful : Faithful frames seen rx) (expected : UInt32 × UInt32) :
    Faithful frames seen { rx with completed := rx.completed.erase expected } := by
  refine ⟨faithful.pending, fun key queued lookup => ?_, faithful.emitted⟩
  rw [Assoc.lookup_erase_some] at lookup
  exact faithful.completed key queued lookup.2

theorem Faithful.release (faithful : Faithful frames seen rx) (move : Release rx emitted next) :
    Faithful frames (seen ++ emitted) next := by
  cases move with
  | gap => exact faithful.quiet (.inr rfl) (.inr rfl) (by simp)
  | emit key first found data oldest turn whole =>
    have erased := faithful.erase (key.1, rx.nextFrameId.getD first.frameId)
    refine ⟨erased.pending, erased.completed, fun unit member => ?_⟩
    rw [List.mem_append, List.mem_singleton] at member
    rcases member with before | now
    · exact faithful.emitted unit before
    · obtain rfl := RxEvent.frame.inj now
      obtain ⟨frame, placed, assembles⟩ := faithful.completed _ found turn
      exact ⟨frame, placed, assembles.data whole, assembles.isKey, assembles.timestampUs⟩
  | corrupt => exact faithful.quiet (.inr rfl) (.inr rfl) (by simp)
  | hollow key first =>
    rw [List.append_nil]
    have erased := faithful.erase (key.1, rx.nextFrameId.getD first.frameId)
    exact ⟨erased.pending, erased.completed, erased.emitted⟩
  | ack nowMs =>
    obtain ⟨⟨count, time, highest, state⟩, -⟩ := rx.ackEvents_frame nowMs
    exact faithful.quiet (.inl (by rw [state])) (.inl (by rw [state]))
      (rx.ackEvents_no_frame nowMs)

omit frames in
theorem noneMissing_new : (FecDecoder.new rxDecoderMaxSymbols rxDecoderMaxBytes).NoneMissing := by
  intro seq
  simp

omit frames in
/-- A source message that is accepted loses nothing and brings at most its own chunk. -/
theorem source_start {entered : VideoReceiver × List RxEvent}
    (complete : entered.1.decoder.NoneMissing) (epoch seq : UInt32) (payload : Payload) :
    ((⟨⟨epoch, true, .source seq payload⟩, entered⟩ : Arrival).start =
        (entered.1.decode (.source seq payload), entered.2)) ∧
      (entered.1.decode (.source seq payload)).decoder.NoneMissing ∧
      ((⟨⟨epoch, true, .source seq payload⟩, entered⟩ : Arrival).events = [] ∨
        (⟨⟨epoch, true, .source seq payload⟩, entered⟩ : Arrival).events =
          [.recovered seq payload false]) := by
  obtain ⟨kept, passed, -⟩ := entered.1.decoder.pushSource_passes complete seq payload
  have events : (entered.1.decoder.pushSource seq payload).2 = [] ∨
      (entered.1.decoder.pushSource seq payload).2 = [.recovered seq payload false] :=
    passed.imp_left And.right
  refine ⟨?_, kept, events⟩
  have lossless : (entered.1.decoder.pushSource seq payload).2.any DecoderEvent.isLoss = false := by
    rcases events with none | one
    · rw [none]
      rfl
    · rw [one]
      rfl
  simp only [Arrival.start, Arrival.events, Runs.andThen, FecDecoder.pushSymbol, discontinueOnLoss,
    lossless]
  simp

include fits few in
theorem Faithful.onMessage (faithful : Faithful frames seen rx) (complete : rx.decoder.NoneMissing)
    (epoch : Epoch) (start : UInt32) (nowMs : Nat) {index number : Nat} {frame : SenderFrame}
    (found : frames[index]? = some frame) (inside : number < frame.chunkCount) :
    Faithful frames (seen ++ (rx.onMessage (frame.message index number epoch start) nowMs).2)
        (rx.onMessage (frame.message index number epoch start) nowMs).1 ∧
      (rx.onMessage (frame.message index number epoch start) nowMs).1.decoder.NoneMissing := by
  obtain ⟨-, ignored⟩ | ⟨arrival, middle, taken, given, arrived, accepted, taking, giving, emitted⟩ :=
    rx.onMessage_cases (frame.message index number epoch start) nowMs
  · rw [ignored]
    exact ⟨by simpa using faithful, complete⟩
  obtain ⟨parsed, reads, same⟩ := arrival_parsed arrived
  obtain ⟨message, entered⟩ := arrival
  rw [frame.parse_message] at reads
  obtain rfl := Except.ok.inj reads
  obtain rfl := same
  have accepted : rx.acceptEpoch epoch.get true nowMs = some entered := accepted
  have entry : Faithful frames (seen ++ entered.2) entered.1 ∧ entered.1.decoder.NoneMissing := by
    obtain ⟨-, same⟩ | ⟨-, same⟩ | ⟨-, same⟩ := acceptEpoch_cases accepted
    · rw [same]
      exact ⟨faithful.quiet (.inl rfl) (.inl rfl) (by simp), complete⟩
    · rw [same]
      exact ⟨by simpa using faithful, complete⟩
    · rw [same]
      exact ⟨faithful.quiet (.inr rfl) (.inr rfl) (by simp), noneMissing_new⟩
  obtain ⟨begun, decoded, events⟩ := source_start entry.2 epoch.get (start + UInt32.ofNat number)
    (frame.payload index number)
  have cut (chunk : Chunk)
      (brought : chunk ∈ (⟨⟨epoch.get, true, .source (start + UInt32.ofNat number)
        (frame.payload index number)⟩, entered⟩ : Arrival).chunks) : Cut frames chunk := by
    have fit := fits frame (List.mem_of_getElem? found)
    rw [Arrival.chunks] at brought
    rcases events with none | one
    · simp [none] at brought
    · rw [one] at brought
      have same : chunk = frame.chunk index number := by
        simpa [SenderFrame.chunkOf_payload index fit inside] using brought
      exact ⟨index, frame, number, found, inside, same⟩
  have taken_faithful := taking.keeps
    (fun seen rx => Faithful frames seen rx ∧ rx.decoder.NoneMissing)
    (fun seen rx emitted next held move =>
      ⟨held.1.intake fits few cut move, move.decoder ▸ held.2⟩)
    (seen ++ entered.2) (by
      rw [VideoReceiver.symbolOf, begun]
      exact ⟨⟨entry.1.pending, entry.1.completed, entry.1.emitted⟩, decoded⟩)
  have given_faithful := giving.keeps
    (fun seen rx => Faithful frames seen rx ∧ rx.decoder.NoneMissing)
    (fun seen rx emitted next held move => ⟨held.1.release move, move.decoder ▸ held.2⟩)
    _ taken_faithful
  rw [emitted, VideoReceiver.symbolOf, begun]
  simpa [List.append_assoc] using given_faithful

end Stream

section Whole

-- The receiver collects the chunks of `frame`, of which those in `arrived` are there.
structure Collecting (frame : SenderFrame) (key : UInt32 × UInt32) (arrived : List Nat)
    (pending : PendingFrame) (rx : VideoReceiver) : Prop where
  anchor : rx.nextFrameId = some key.2
  admits : rx.awaitingIdr = false
  completed : rx.completed = ∅
  held : rx.pending.lookup key = some pending
  assembles : frame.Assembles pending
  received : pending.receivedCount = arrived.length
  free : ∀ number < frame.chunkCount, number ∉ arrived → pending.parts[number]? = some none
  filled : ∀ number ∈ arrived, ∃ part, pending.parts[number]? = some (some part)
  buffered : rx.bufferedBytes ≤ chunkV2FragmentMax * arrived.length

variable {frame : SenderFrame} {index number : Nat} {epoch : UInt32} {arrived : List Nat}
  {pending : PendingFrame} {rx : VideoReceiver}
  (fits : frame.data.length ≤ encodedFrameMax) (inside : number < frame.chunkCount)
  (fresh : number ∉ arrived)

include fits inside fresh

theorem Collecting.store
    (collecting : Collecting frame (epoch, UInt32.ofNat index) arrived pending rx) :
    Collecting frame (epoch, UInt32.ofNat index) (number :: arrived)
      (pending.store (frame.chunk index number) false)
      (rx.updatePending (epoch, UInt32.ofNat index)
        (pending.store (frame.chunk index number) false)
        (fragmentAt frame.data number).length) := by
  have place := SenderFrame.toNat_number fits inside
  have short := fragmentAt_short frame.data number
  constructor
  case anchor => exact collecting.anchor
  case admits => exact collecting.admits
  case completed => exact collecting.completed
  case held => exact AList.lookup_insert _
  case assembles => exact collecting.assembles.store fits inside false
  case received => simp [PendingFrame.store, collecting.received]
  case free =>
    intro other within absent
    rw [List.mem_cons, not_or] at absent
    simp only [PendingFrame.store, SenderFrame.chunk, place]
    rw [List.getElem?_set_ne (Ne.symm absent.1)]
    exact collecting.free other within absent.2
  case filled =>
    intro other member
    simp only [PendingFrame.store, SenderFrame.chunk, place]
    by_cases same : other = number
    · subst same
      rw [List.getElem?_set_self (by rw [collecting.assembles.slots]; exact inside)]
      exact ⟨_, rfl⟩
    · rw [List.getElem?_set_ne (Ne.symm same)]
      exact collecting.filled other ((List.mem_cons.mp member).resolve_left same)
  case buffered =>
    have before := collecting.buffered
    simp only [updatePending, List.length_cons, Nat.mul_succ]
    omega

/-- A chunk of the frame is stored, and completes the frame if it is the last one. -/
theorem Collecting.storeChunk
    (collecting : Collecting frame (epoch, UInt32.ofNat index) arrived pending rx)
    (few : arrived.length < frame.chunkCount) (nowMs : Nat) :
    rx.storeChunk (epoch, UInt32.ofNat index) pending true (frame.chunk index number) false nowMs =
      let stored := pending.store (frame.chunk index number) false
      let grown := rx.updatePending (epoch, UInt32.ofNat index) stored
        (fragmentAt frame.data number).length
      if arrived.length + 1 = frame.chunkCount then
        (grown.queueFrame (epoch, UInt32.ofNat index) stored nowMs, [])
      else (grown, []) := by
  have place := SenderFrame.toNat_number fits inside
  have agrees : pending.metadataMatches true (frame.chunk index number) = true := by
    have assembles := collecting.assembles
    simp [PendingFrame.metadataMatches, SenderFrame.chunk, assembles.isV2, assembles.isKey,
      assembles.timestampUs, assembles.chunkCount, assembles.encodedFrameLen,
      assembles.encodedFrameCrc32]
  have awaits : pending.awaits (frame.chunk index number) = true := by
    have free := collecting.free number inside fresh
    simp [PendingFrame.awaits, SenderFrame.chunk, place, free]
  have room : rx.bufferFull (frame.chunk index number).fragment = false := by
    have short := fragmentAt_short frame.data number
    have most : frame.chunkCount ≤ 4096 := chunkCountOf_le fits
    have before := collecting.buffered
    have cap : rxDecoderMaxBytes.toNat = 16 * 1024 * 1024 := rfl
    simp only [bufferFull, SenderFrame.chunk, cap, chunkV2FragmentMax, decide_eq_false_iff_not]
      at short before ⊢
    omega
  have count : (pending.store (frame.chunk index number) false).chunkCount.toNat =
      frame.chunkCount := by
    change pending.chunkCount.toNat = frame.chunkCount
    rw [collecting.assembles.chunkCount]
    exact SenderFrame.toNat_chunkCount fits
  have received : (pending.store (frame.chunk index number) false).receivedCount =
      arrived.length + 1 := by
    simp [PendingFrame.store, collecting.received]
  unfold VideoReceiver.storeChunk
  simp only [agrees, awaits, room, Bool.not_true, Bool.false_eq_true, if_false, received, count]
  by_cases last : arrived.length + 1 = frame.chunkCount
  · have admits : (rx.updatePending (epoch, UInt32.ofNat index)
        (pending.store (frame.chunk index number) false)
        (frame.chunk index number).fragment.length).awaitingIdr = false := collecting.admits
    rw [if_neg (by simpa using last), if_pos last, completeFrame, if_neg (by simp [admits])]
    rfl
  · rw [if_pos last, if_neg last]
    rfl

omit inside fresh in
theorem collecting_openPending (completed : rx.completed = ∅)
    (anchor : rx.nextFrameId = none) (admits : rx.awaitingIdr = false)
    (buffered : rx.bufferedBytes = 0) (epoch : UInt32) (index number : Nat) :
    Collecting frame (epoch, UInt32.ofNat index) [] ((frame.chunk index number).openFrame true)
      (rx.openPending (epoch, UInt32.ofNat index) ((frame.chunk index number).openFrame true)) := by
  constructor
  case anchor => simp [openPending, anchor, admits]
  case admits => exact admits
  case completed => exact completed
  case held => exact AList.lookup_insert _
  case assembles => exact SenderFrame.assembles_openFrame fits
  case received => rfl
  case free =>
    intro other within _
    simp only [Chunk.openFrame, SenderFrame.chunk, SenderFrame.toNat_chunkCount fits,
      List.getElem?_replicate, if_pos within]
  case filled => simp
  case buffered => simp [openPending, buffered]

omit fits inside fresh

theorem admitChunk_of_empty (pending : rx.pending = ∅) (completed : rx.completed = ∅)
    (buffered : rx.bufferedBytes = 0) (nowMs : Nat) :
    rx.admitChunk epoch true (frame.chunk index number) false nowMs =
      (rx.openPending (epoch, UInt32.ofNat index)
        ((frame.chunk index number).openFrame true)).storeChunk (epoch, UInt32.ofNat index)
        ((frame.chunk index number).openFrame true) true (frame.chunk index number) false nowMs := by
  have short := fragmentAt_short frame.data number
  have cap : rxDecoderMaxBytes.toNat = 16 * 1024 * 1024 := rfl
  have room : rx.bufferFull (fragmentAt frame.data number) = false := by
    simp only [bufferFull, cap, chunkV2FragmentMax, buffered, decide_eq_false_iff_not] at short ⊢
    omega
  simp [admitChunk, completed, pending, room, FrameMap.size, maxPendingFrames, SenderFrame.chunk]

theorem Collecting.admitChunk
    (collecting : Collecting frame (epoch, UInt32.ofNat index) arrived pending rx) (nowMs : Nat) :
    rx.admitChunk epoch true (frame.chunk index number) false nowMs =
      rx.storeChunk (epoch, UInt32.ofNat index) pending true (frame.chunk index number) false
        nowMs := by
  have held := collecting.held
  simp only [VideoReceiver.admitChunk, SenderFrame.chunk, collecting.completed, held]
  simp

theorem flushReorder_of_empty (completed : rx.completed = ∅) (nowMs : Nat) :
    rx.flushReorder nowMs = (rx, []) := by
  simp [flushReorder, completed, FrameMap.size, flushLoop]

/-- A complete frame that is alone and whose turn it is leaves the queue. -/
theorem flushReorder_of_whole {key : UInt32 × UInt32} {now : Nat}
    (fits : frame.data.length ≤ encodedFrameMax)
    (completed : rx.completed = AList.insert key ⟨key.2, pending, now⟩ ∅)
    (anchor : rx.nextFrameId = some key.2) (assembles : frame.Assembles pending)
    (joined : PendingFrame.joinParts pending.parts = some frame.data) (nowMs : Nat) :
    (rx.flushReorder nowMs).2 =
      [.frame (rx.unitOf key.1 ⟨key.2, pending, now⟩ frame.data)] := by
  have intact : pending.intact key.2 frame.data = true := by
    simp [PendingFrame.intact, validateEncodedFrameV2, PendingFrame.header, assembles.encodedFrameLen,
      assembles.encodedFrameCrc32, SenderFrame.toNat_dataLength fits, Except.isOk, Except.toBool]
  have size : rx.completed.size = 1 := by
    rw [completed]
    rfl
  have oldest : rx.completed.entries.getLast? = some ⟨key, ⟨key.2, pending, now⟩⟩ := by
    rw [completed]
    rfl
  have turn : rx.completed.lookup (key.1, rx.nextFrameId.getD key.2) =
      some ⟨key.2, pending, now⟩ := by
    rw [completed, anchor]
    exact AList.lookup_insert _
  simp only [flushReorder, size, flushLoop, oldest, turn, Runs.andThen, takeFrame, assembleFrame,
    joined, intact]
  rfl

theorem Collecting.congr {key : UInt32 × UInt32}
    (collecting : Collecting frame key arrived pending rx) {next : VideoReceiver}
    (anchor : next.nextFrameId = rx.nextFrameId) (admits : next.awaitingIdr = rx.awaitingIdr)
    (completed : next.completed = rx.completed) (same : next.pending = rx.pending)
    (buffered : next.bufferedBytes = rx.bufferedBytes) :
    Collecting frame key arrived pending next :=
  ⟨anchor.trans collecting.anchor, admits.trans collecting.admits,
    completed.trans collecting.completed, same ▸ collecting.held, collecting.assembles,
    collecting.received, collecting.free, collecting.filled, buffered ▸ collecting.buffered⟩

theorem Collecting.joined {key : UInt32 × UInt32}
    (collecting : Collecting frame key arrived pending rx)
    (whole : ∀ number < frame.chunkCount, number ∈ arrived) :
    PendingFrame.joinParts pending.parts = some frame.data := by
  obtain ⟨data, joined⟩ := PendingFrame.joinParts_of_full pending.parts (by
    rw [List.countP_eq_length]
    intro part member
    obtain ⟨place, inside, rfl⟩ := List.getElem_of_mem member
    obtain ⟨bytes, found⟩ := collecting.filled place
      (whole place (collecting.assembles.slots ▸ inside))
    rw [List.getElem?_eq_getElem inside, Option.some.injEq] at found
    rw [found]
    rfl)
  rw [joined, collecting.assembles.data joined]

-- Nothing but some chunks of `frame` has reached the receiver, each of them once.
structure Awaiting (frame : SenderFrame) (index : Nat) (epoch : Epoch) (start : UInt32)
    (arrived : List Nat) (rx : VideoReceiver) : Prop where
  complete : rx.decoder.NoneMissing
  seqs : ∀ seq, rx.decoder.sources.get? seq ≠ none →
    ∃ number ∈ arrived, seq = start + UInt32.ofNat number
  collecting : (rx.activeEpoch = none ∧ arrived = [] ∧ rx.pending = ∅ ∧ rx.completed = ∅ ∧
      rx.nextFrameId = none ∧ rx.awaitingIdr = false ∧ rx.bufferedBytes = 0) ∨
    rx.activeEpoch = some epoch.get ∧
      ∃ pending, Collecting frame (epoch.get, UInt32.ofNat index) arrived pending rx

variable {epoch : Epoch} {start : UInt32}

theorem Awaiting.accept (awaiting : Awaiting frame index epoch start arrived rx) (nowMs : Nat) :
    rx.acceptEpoch epoch.get true nowMs =
      some ({ rx with activeEpoch := some epoch.get }, []) := by
  rcases awaiting.collecting with ⟨inactive, -⟩ | ⟨active, -⟩
  · rw [acceptEpoch, inactive]
  · rw [acceptEpoch, active]
    dsimp only
    rw [if_pos rfl, ← active]

/-- The chunk is stored in the frame that collects it, which it opens if it comes first. -/
theorem Awaiting.stores (awaiting : Awaiting frame index epoch start arrived rx)
    (fits : frame.data.length ≤ encodedFrameMax) (symbol : Symbol) (number nowMs : Nat) :
    ∃ pending opened, Collecting frame (epoch.get, UInt32.ofNat index) arrived pending opened ∧
      opened.activeEpoch = some epoch.get ∧
      opened.decoder = (rx.decoder.pushSymbol symbol).1 ∧
      ({ rx with activeEpoch := some epoch.get }.decode symbol).admitChunk epoch.get true
          (frame.chunk index number) false nowMs =
        opened.storeChunk (epoch.get, UInt32.ofNat index) pending true
          (frame.chunk index number) false nowMs := by
  let decoded := { rx with activeEpoch := some epoch.get }.decode symbol
  rcases awaiting.collecting with
    ⟨-, rfl, pending, completed, anchor, admits, buffered⟩ | ⟨-, pending, collecting⟩
  · have none_pending : decoded.pending = ∅ := pending
    have none_completed : decoded.completed = ∅ := completed
    exact ⟨_, _, collecting_openPending fits none_completed anchor admits buffered epoch.get index
      number, rfl, rfl, admitChunk_of_empty none_pending completed buffered nowMs⟩
  · have same : Collecting frame (epoch.get, UInt32.ofNat index) arrived pending decoded :=
      collecting.congr rfl rfl rfl rfl rfl
    exact ⟨pending, _, same, rfl, rfl, same.admitChunk nowMs⟩

theorem Awaiting.unseen (awaiting : Awaiting frame index epoch start arrived rx)
    (few : frame.chunkCount ≤ 4096) (bounded : ∀ other ∈ arrived, other < frame.chunkCount)
    (inside : number < frame.chunkCount) (fresh : number ∉ arrived) :
    rx.decoder.sources.get? (start + UInt32.ofNat number) = none := by
  by_contra seen
  obtain ⟨other, member, same⟩ := awaiting.seqs _ seen
  have below := bounded other member
  have equal : UInt32.ofNat number = UInt32.ofNat other := by
    simpa using same
  rw [← UInt32.toNat_inj, UInt32.toNat_ofNat_of_lt' (by rw [UInt32.size]; omega),
    UInt32.toNat_ofNat_of_lt' (by rw [UInt32.size]; omega)] at equal
  exact fresh (equal ▸ member)

theorem deliverChunk_payload (fits : frame.data.length ≤ encodedFrameMax)
    (inside : number < frame.chunkCount) (rx : VideoReceiver) (epoch : UInt32) (viaFec : Bool)
    (nowMs : Nat) :
    rx.deliverChunk epoch true (frame.payload index number) viaFec nowMs =
      rx.admitChunk epoch true (frame.chunk index number) viaFec nowMs := by
  simp only [deliverChunk, SenderFrame.parseChunk_payload index fits inside,
    SenderFrame.wellFormed_chunk index fits inside, if_true]

/-- How a chunk that has not arrived before passes through the receiver. -/
theorem Awaiting.course (awaiting : Awaiting frame index epoch start arrived rx)
    (fits : frame.data.length ≤ encodedFrameMax)
    (bounded : ∀ other ∈ arrived, other < frame.chunkCount) (inside : number < frame.chunkCount)
    (fresh : number ∉ arrived) (few : arrived.length < frame.chunkCount) (nowMs : Nat) :
    ∃ pending opened,
      Collecting frame (epoch.get, UInt32.ofNat index) (number :: arrived) pending opened ∧
      opened.activeEpoch = some epoch.get ∧ opened.decoder.NoneMissing ∧
      (∀ seq, opened.decoder.sources.get? seq ≠ none →
        ∃ other ∈ number :: arrived, seq = start + UInt32.ofNat other) ∧
      let stored := if arrived.length + 1 = frame.chunkCount then
          opened.queueFrame (epoch.get, UInt32.ofNat index) pending nowMs
        else opened
      rx.onMessage (frame.message index number epoch start) nowMs =
        Runs.andThen (stored.ackEvents nowMs) (·.flushReorder nowMs) := by
  let symbol := Symbol.source (start + UInt32.ofNat number) (frame.payload index number)
  let arrival : Arrival :=
    ⟨⟨epoch.get, true, symbol⟩, { rx with activeEpoch := some epoch.get }, []⟩
  have most : frame.chunkCount ≤ 4096 := chunkCountOf_le fits
  obtain ⟨complete, passed, grown⟩ := rx.decoder.pushSource_passes awaiting.complete
    (start + UInt32.ofNat number) (frame.payload index number)
  have events : arrival.events =
      [.recovered (start + UInt32.ofNat number) (frame.payload index number) false] :=
    passed.resolve_left (fun seen => seen.1 (awaiting.unseen most bounded inside fresh))
  have begun : arrival.start = ({ rx with activeEpoch := some epoch.get }.decode symbol, []) :=
    (source_start awaiting.complete epoch.get _ _).1
  have arrives : rx.arrival (frame.message index number epoch start) nowMs = some arrival := by
    rw [VideoReceiver.arrival, frame.parse_message]
    simp only [symbolOf, awaiting.accept, Option.map_some]
    rfl
  obtain ⟨pending, opened, collecting, active, decoder, admitted⟩ :=
    awaiting.stores fits symbol number nowMs
  have delivered : arrival.delivered nowMs = Runs.andThen
      (opened.storeChunk (epoch.get, UInt32.ofNat index) pending true (frame.chunk index number)
        false nowMs) (·.ackEvents nowMs) := by
    rw [Arrival.delivered, events, begun]
    change Runs.run (deliverEvent epoch.get true nowMs) _ _ = _
    simp only [Runs.run, deliverEvent, deliverChunk_payload fits inside, admitted, List.append_nil]
  refine ⟨pending.store (frame.chunk index number) false,
    opened.updatePending (epoch.get, UInt32.ofNat index)
      (pending.store (frame.chunk index number) false) (fragmentAt frame.data number).length,
    collecting.store fits inside fresh, active, ?_, fun seq held => ?_, ?_⟩
  · change opened.decoder.NoneMissing
    rw [decoder]
    exact complete
  · have held : opened.decoder.sources.get? seq ≠ none := held
    rw [decoder] at held
    rcases grown seq held with same | before
    · exact ⟨number, List.mem_cons_self, same⟩
    · obtain ⟨other, member, same⟩ := awaiting.seqs seq before
      exact ⟨other, List.mem_cons_of_mem _ member, same⟩
  · rw [(onMessage_of_some arrives).2, begun, delivered,
      collecting.storeChunk fits inside fresh few nowMs]
    dsimp only
    split_ifs <;> simp [Runs.andThen]

theorem unitsOf_ackEvents (rx : VideoReceiver) (nowMs : Nat) :
    unitsOf (rx.ackEvents nowMs).2 = [] := by
  obtain ⟨-, none | ⟨seq, some⟩⟩ := rx.ackEvents_frame nowMs
  · rw [none]
    rfl
  · rw [some]
    rfl

section Delivery

variable (awaiting : Awaiting frame index epoch start arrived rx)
  (bounded : ∀ other ∈ arrived, other < frame.chunkCount) (nowMs : Nat)

include awaiting fits bounded inside fresh

theorem Awaiting.more (few : arrived.length + 1 < frame.chunkCount) :
    Awaiting frame index epoch start (number :: arrived)
        (rx.onMessage (frame.message index number epoch start) nowMs).1 ∧
      unitsOf (rx.onMessage (frame.message index number epoch start) nowMs).2 = [] := by
  obtain ⟨pending, opened, collecting, active, complete, seqs, course⟩ :=
    awaiting.course fits bounded inside fresh (by omega) nowMs
  rw [course, if_neg (by omega)]
  obtain ⟨⟨count, time, highest, state⟩, -⟩ := opened.ackEvents_frame nowMs
  have acked : Collecting frame (epoch.get, UInt32.ofNat index) (number :: arrived) pending
      (opened.ackEvents nowMs).1 := by
    rw [state]
    exact collecting.congr rfl rfl rfl rfl rfl
  rw [Runs.andThen, flushReorder_of_empty acked.completed]
  refine ⟨⟨?_, ?_, .inr ⟨?_, pending, acked⟩⟩, by simp [unitsOf_ackEvents]⟩
  · rw [state]
    exact complete
  · rw [state]
    exact seqs
  · rw [state]
    exact active

theorem Awaiting.last (few : arrived.length + 1 = frame.chunkCount)
    (whole : ∀ other < frame.chunkCount, other ∈ number :: arrived) :
    ∃ unit, unitsOf (rx.onMessage (frame.message index number epoch start) nowMs).2 = [unit] ∧
      unit.frameId = UInt32.ofNat index ∧ unit.data = frame.data ∧ unit.isKey = frame.isKey ∧
      unit.timestampUs = frame.timestampUs := by
  obtain ⟨pending, opened, collecting, -, -, -, course⟩ :=
    awaiting.course fits bounded inside fresh (by omega) nowMs
  have joined := collecting.joined whole
  have assembles := collecting.assembles
  let queued := opened.queueFrame (epoch.get, UInt32.ofNat index) pending nowMs
  obtain ⟨⟨count, time, highest, state⟩, -⟩ := queued.ackEvents_frame nowMs
  have alone : (queued.ackEvents nowMs).1.completed =
      AList.insert (epoch.get, UInt32.ofNat index) ⟨UInt32.ofNat index, pending, nowMs⟩ ∅ := by
    rw [state]
    change AList.insert _ _ opened.completed = _
    rw [collecting.completed]
  have anchor : (queued.ackEvents nowMs).1.nextFrameId = some (UInt32.ofNat index) := by
    rw [state]
    exact collecting.anchor
  have flushed := flushReorder_of_whole fits alone anchor assembles joined nowMs
  rw [course, if_pos few, Runs.andThen, unitsOf_append, unitsOf_ackEvents, flushed]
  exact ⟨_, rfl, rfl, rfl, assembles.isKey, assembles.timestampUs⟩

end Delivery

theorem awaiting_new (frame : SenderFrame) (index : Nat) (epoch : Epoch) (start : UInt32)
    (nowMs : Nat) : Awaiting frame index epoch start [] (.new nowMs) := by
  refine ⟨noneMissing_new, ?_, .inl ⟨rfl, rfl, rfl, rfl, rfl, rfl, rfl⟩⟩
  intro seq held
  simp [VideoReceiver.new] at held

/-- As long as chunks are missing no unit comes out. -/
theorem Awaiting.run (fits : frame.data.length ≤ encodedFrameMax) (deliveries : List (Nat × Nat))
    (awaiting : Awaiting frame index epoch start arrived rx)
    (bounded : ∀ number ∈ deliveries.map Prod.fst ++ arrived, number < frame.chunkCount)
    (once : (deliveries.map Prod.fst ++ arrived).Nodup)
    (few : deliveries.length + arrived.length < frame.chunkCount) :
    let done := Runs.run call rx (deliveries.map (fun delivery =>
      .onMessage (frame.message index delivery.1 epoch start) delivery.2))
    Awaiting frame index epoch start ((deliveries.map Prod.fst).reverse ++ arrived) done.1 ∧
      unitsOf done.2 = [] := by
  induction deliveries generalizing arrived rx with
  | nil => exact ⟨awaiting, rfl⟩
  | cons delivery rest ih =>
    -- The chunk moves from the front of what is to come to the front of what has arrived.
    have moved : (rest.map Prod.fst ++ delivery.1 :: arrived).Perm
        ((delivery :: rest).map Prod.fst ++ arrived) := List.perm_middle
    have here := List.nodup_cons.mp (List.nodup_append.mp (moved.nodup_iff.mpr once)).2.1
    rw [List.length_cons] at few
    have next := awaiting.more fits (bounded delivery.1 (by simp)) here.1
      (fun other member => bounded other (by simp [member])) delivery.2 (by omega)
    have later := ih next.1 (fun other member => bounded other (moved.mem_iff.mp member))
      (moved.nodup_iff.mpr once) (by rw [List.length_cons]; omega)
    refine ⟨by simpa [Runs.run, VideoReceiver.call] using later.1, ?_⟩
    simp only [List.map_cons, Runs.run, VideoReceiver.call, unitsOf_append, next.2]
    exact later.2

end Whole

theorem exists_numbering {A B : Type} (f : Nat → A) (numbers : List Nat) (items : List (A × B))
    (order : (items.map Prod.fst).Perm (numbers.map f)) :
    ∃ numbered : List (Nat × B), (numbered.map Prod.fst).Perm numbers ∧
      items = numbered.map (fun item => (f item.1, item.2)) := by
  induction items generalizing numbers with
  | nil =>
    have none : numbers = [] := by simpa using order.symm.eq_nil
    exact ⟨[], by simp [none], rfl⟩
  | cons item rest ih =>
    obtain ⟨number, member, same⟩ := List.mem_map.mp (order.subset List.mem_cons_self)
    have split := List.perm_cons_erase member
    obtain ⟨numbered, placed, rfl⟩ := ih (numbers.erase number) (by
      have both := order.trans (split.map f)
      rw [List.map_cons, List.map_cons, same] at both
      exact both.cons_inv)
    refine ⟨(number, item.2) :: numbered, ?_, by simp [same]⟩
    exact (placed.cons number).trans split.symm

-- Calls that deliver nothing but the given messages.
def Delivers (messages : List (List UInt8)) : RxCall → Prop
  | .onMessage buf _ => buf ∈ messages
  | .tickEvents _ | .tick _ | .pollNeedsIdr => True

-- What a fresh receiver makes of the messages `sent` for `frames`, message lists by frame.
structure Restores (frames : List SenderFrame) (sent : List (List (List UInt8))) : Prop where
  faithful : ∀ (nowMs : Nat) (calls : List RxCall), (∀ call ∈ calls, Delivers sent.flatten call) →
    ∀ unit, .frame unit ∈ (Runs.run call (.new nowMs) calls).2 → unit.Faithful frames
  whole : ∀ (index : Nat) (messages : List (List UInt8)), sent[index]? = some messages →
    ∀ (nowMs : Nat) (front : List (List UInt8 × Nat)) (last : List UInt8 × Nat),
      ((front ++ [last]).map Prod.fst).Perm messages →
      let before := Runs.run call (.new nowMs)
        (front.map (fun delivery => .onMessage delivery.1 delivery.2))
      unitsOf before.2 = [] ∧
        ∃ unit, unitsOf (before.1.onMessage last.1 last.2).2 = [unit] ∧
          unit.frameId.toNat = index ∧ unit.Faithful frames

theorem run_faithful {frames : List SenderFrame}
    (fits : ∀ frame ∈ frames, frame.data.length ≤ encodedFrameMax)
    (few : frames.length ≤ UInt32.size) {epoch : Epoch} {messages : List (List UInt8)}
    (cut : ∀ buf ∈ messages, ∃ (index : Nat) (frame : SenderFrame) (number : Nat) (start : UInt32),
      frames[index]? = some frame ∧ number < frame.chunkCount ∧
        buf = frame.message index number epoch start)
    (nowMs : Nat) (calls : List RxCall) (delivers : ∀ call ∈ calls, Delivers messages call) :
    ∀ unit, .frame unit ∈ (Runs.run call (.new nowMs) calls).2 → unit.Faithful frames := by
  have initial : Faithful frames [] (.new nowMs) := by
    constructor <;> simp [VideoReceiver.new]
  have kept := Runs.run_invariant call (fun _ _ => Delivers messages)
    (fun seen rx => Faithful frames seen rx ∧ rx.decoder.NoneMissing) ?_ [] (.new nowMs) calls
    ⟨initial, noneMissing_new⟩
    (Runs.along_of_forall (fun call member _ _ => delivers call member) _ _)
  · exact kept.1.emitted
  · intro seen rx call held delivered
    cases call with
    | onMessage buf nowMs =>
      obtain ⟨index, frame, number, start, found, inside, rfl⟩ := cut buf delivered
      rw [call]
      exact held.1.onMessage fits few held.2 epoch start nowMs found inside
    | tickEvents nowMs =>
      exact (rx.tickEvents_path nowMs).keeps
        (fun seen rx => Faithful frames seen rx ∧ rx.decoder.NoneMissing)
        (fun seen rx emitted next held move => ⟨held.1.release move, move.decoder ▸ held.2⟩)
        seen held
    | tick nowMs =>
      have move : Release rx (rx.ackEvents nowMs).2 (rx.ackEvents nowMs).1 := .ack rx nowMs
      exact ⟨held.1.release move, move.decoder ▸ held.2⟩
    | pollNeedsIdr => exact ⟨held.1.quiet (.inl rfl) (.inl rfl) (by simp [call]), held.2⟩

theorem run_whole {frame : SenderFrame} (fits : frame.data.length ≤ encodedFrameMax)
    {index : Nat} {epoch : Epoch} {start : UInt32} (nowMs : Nat)
    (front : List (List UInt8 × Nat)) (last : List UInt8 × Nat)
    (order : ((front ++ [last]).map Prod.fst).Perm
      ((List.range frame.chunkCount).map (fun number => frame.message index number epoch start))) :
    let before := Runs.run call (.new nowMs)
      (front.map (fun delivery => .onMessage delivery.1 delivery.2))
    unitsOf before.2 = [] ∧
      ∃ unit, unitsOf (before.1.onMessage last.1 last.2).2 = [unit] ∧
        unit.frameId = UInt32.ofNat index ∧ unit.data = frame.data ∧ unit.isKey = frame.isKey ∧
        unit.timestampUs = frame.timestampUs := by
  obtain ⟨numbered, placed, same⟩ := exists_numbering _ _ _ order
  obtain ⟨early, final, rfl, rfl, ends⟩ := List.map_eq_append_iff.mp same.symm
  obtain ⟨final, rfl⟩ : ∃ delivery, final = [delivery] := by
    rw [← List.length_eq_one_iff, ← List.length_map, ends]
    rfl
  obtain rfl := List.cons.inj ends |>.1
  rw [List.map_append] at placed
  have once : (early.map Prod.fst ++ [final.1]).Nodup := placed.nodup_iff.mpr List.nodup_range
  have inside (number : Nat) : number ∈ early.map Prod.fst ++ [final.1] ↔
      number < frame.chunkCount := by
    rw [← List.mem_range]
    exact placed.mem_iff
  have length : early.length + 1 = frame.chunkCount := by
    simpa using placed.length_eq
  have begun := Awaiting.run fits early (awaiting_new frame index epoch start nowMs)
    (fun number member => (inside number).mp (by simp at member ⊢; exact .inl member))
    (by simpa using once.of_append_left) (by simp; omega)
  simp only [List.append_nil] at begun
  have done := begun.1.last fits ((inside final.1).mp (by simp))
    (by
      have apart := (List.nodup_append.mp once).2.2
      intro member
      exact apart final.1 (by simpa using member) final.1 (by simp) rfl)
    (fun number member => (inside number).mp (by simp at member ⊢; exact .inl member))
    final.2 (by simpa using length)
    (fun number below => by
      have member := (inside number).mpr below
      simp only [List.mem_append, List.mem_singleton] at member
      simp only [List.mem_cons, List.mem_reverse]
      exact member.symm)
  rw [List.map_map]
  exact ⟨begun.2, done⟩

/-- Frames of any size up to the limit can be sent, and whatever is lost, repeated or reordered on
the way, a fresh receiver emits them as they were sent; if nothing of a frame is lost, with the last
of its messages. -/
theorem sent_frames_restored (epoch : Epoch) (seq : UInt32) (frames : List SenderFrame)
    (fits : ∀ frame ∈ frames, frame.data.length ≤ encodedFrameMax)
    (few : frames.length ≤ UInt32.size) :
    ∃ sent, sendFrames epoch 0 seq frames = .ok sent ∧ Restores frames sent := by
  obtain ⟨sent, same, length, each⟩ := sendFrames_eq epoch 0 seq frames fits
  have placed (index : Nat) (messages : List (List UInt8)) (found : sent[index]? = some messages) :
      ∃ (frame : SenderFrame) (start : UInt32), frames[index]? = some frame ∧
        messages = (List.range frame.chunkCount).map (fun number =>
          frame.message index number epoch start) := by
    obtain ⟨inside, -⟩ := List.getElem?_eq_some_iff.mp found
    have held := List.getElem?_eq_getElem (length ▸ inside)
    obtain ⟨start, sent_here⟩ := each index _ held
    rw [found, Option.some.injEq, Nat.zero_add] at sent_here
    exact ⟨_, start, held, sent_here⟩
  refine ⟨sent, same, ⟨?_, ?_⟩⟩
  · apply run_faithful fits few
    intro buf member
    obtain ⟨messages, sent_member, member⟩ := List.mem_flatten.mp member
    obtain ⟨index, found⟩ := List.mem_iff_getElem?.mp sent_member
    obtain ⟨frame, start, held, rfl⟩ := placed index messages found
    obtain ⟨number, inside, rfl⟩ := List.mem_map.mp member
    exact ⟨index, frame, number, start, held, List.mem_range.mp inside, rfl⟩
  · intro index messages found nowMs front last order
    obtain ⟨frame, start, held, rfl⟩ := placed index messages found
    obtain ⟨quiet, unit, alone, frameId, data, isKey, timestampUs⟩ :=
      run_whole (fits frame (List.mem_of_getElem? held)) nowMs front last order
    have number : unit.frameId.toNat = index := by
      rw [frameId]
      exact toNat_frameId few held 0
    exact ⟨quiet, unit, alone, number, frame, by rwa [number], data, isKey, timestampUs⟩

theorem sent_frames_restored_pair :
    ∃ sent, sendFrames ⟨7, by decide⟩ 0 0xFFFFFFFF [⟨true, 5, [1, 2, 3]⟩, ⟨false, 9, []⟩] = .ok sent ∧
      Restores [⟨true, 5, [1, 2, 3]⟩, ⟨false, 9, []⟩] sent :=
  sent_frames_restored ⟨7, by decide⟩ 0xFFFFFFFF [⟨true, 5, [1, 2, 3]⟩, ⟨false, 9, []⟩]
    (by simp [encodedFrameMax]) (by simp [UInt32.size])

end VideoReceiver

end BetterParsec
