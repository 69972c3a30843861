import BetterParsec.Video.Moves

set_option autoImplicit false
set_option linter.all false

/-!
# Sender side of a frame stream

Frames cut into chunks, the chunks numbered with consecutive seqs and wrapped
into version 2 source messages of one epoch; and what the receiver reads back
from such a message.
-/

namespace BetterParsec

structure SenderFrame where
  isKey : Bool
  timestampUs : UInt32
  data : List UInt8

def sendFrame (epoch : Epoch) (index : Nat) (seq : UInt32) (frame : SenderFrame) :
    Except FecWireError (List (List UInt8)) := do
  let chunks ← chunkFrameV2 (UInt32.ofNat index) frame.isKey frame.timestampUs frame.data
  chunks.zipIdx.mapM (fun chunk =>
    encodeSymbolMsgV2 (.source epoch (seq + UInt32.ofNat chunk.2) chunk.1))

def sendFrames (epoch : Epoch) : Nat → UInt32 → List SenderFrame →
    Except FecWireError (List (List (List UInt8)))
  | _, _, [] => .ok []
  | index, seq, frame :: rest => do
      let messages ← sendFrame epoch index seq frame
      let later ← sendFrames epoch (index + 1) (seq + UInt32.ofNat messages.length) rest
      return messages :: later

namespace SenderFrame

variable (frame : SenderFrame) (index number : Nat)

def chunkCount : Nat := chunkCountOf frame.data.length

-- Chunk `number` of the frame as the receiver sees it.
def chunk : Chunk :=
  { frameId := UInt32.ofNat index
    chunkIndex := UInt16.ofNat number
    chunkCount := UInt16.ofNat frame.chunkCount
    isKey := frame.isKey
    timestampUs := frame.timestampUs
    encodedLen := UInt32.ofNat frame.data.length
    encodedCrc := ieeeCrc32 frame.data
    fragment := fragmentAt frame.data number }

def payload : List UInt8 :=
  chunkV2Bytes (chunkHeaderV2 (UInt32.ofNat index) frame.isKey frame.timestampUs frame.data number)
    (fragmentAt frame.data number)

def message (epoch : Epoch) (seq : UInt32) : List UInt8 :=
  2 :: (leU32 epoch.get ++ leU32 (seq + UInt32.ofNat number) ++
    v2Tail (frame.payload index number))

theorem payload_fits : (frame.payload index number).length ≤ v2SourcePayloadMax := by
  have fragment := fragmentAt_short frame.data number
  rw [payload, length_chunkV2Bytes]
  simp only [chunkV2HeaderLen, chunkV2FragmentMax, v2SourcePayloadMax] at fragment ⊢
  omega

theorem encode_payload (epoch : Epoch) (seq : UInt32) :
    encodeSymbolMsgV2 (.source epoch (seq + UInt32.ofNat number) (frame.payload index number)) =
      .ok (frame.message index number epoch seq) := by
  have fits := frame.payload_fits index number
  rw [encodeSymbolMsgV2, if_neg (by omega), message]

theorem parse_message (epoch : Epoch) (seq : UInt32) :
    parseSymbolMsgVersioned (frame.message index number epoch seq) =
      .ok (.v2 (.source epoch (seq + UInt32.ofNat number) (frame.payload index number))) :=
  parseSymbolMsgVersioned_encode _ _ (frame.encode_payload index number epoch seq)

variable {frame} (fits : frame.data.length ≤ encodedFrameMax)
include fits

theorem toNat_chunkCount : (UInt16.ofNat frame.chunkCount).toNat = frame.chunkCount := by
  have most := chunkCountOf_le fits
  have limit : v2ChunkCountMax.toNat = 4096 := rfl
  apply UInt16.toNat_ofNat_of_lt'
  rw [UInt16.size, chunkCount]
  omega

theorem toNat_dataLength : (UInt32.ofNat frame.data.length).toNat = frame.data.length := by
  apply UInt32.toNat_ofNat_of_lt'
  simp only [encodedFrameMax, UInt32.size] at fits ⊢
  omega

variable {number} (inside : number < frame.chunkCount)
include inside

theorem toNat_number : (UInt16.ofNat number).toNat = number := by
  have most := chunkCountOf_le fits
  have limit : v2ChunkCountMax.toNat = 4096 := rfl
  apply UInt16.toNat_ofNat_of_lt'
  rw [UInt16.size]
  rw [chunkCount] at inside
  omega

theorem parseChunk_payload :
    parseChunk true (frame.payload index number) = some (frame.chunk index number) := by
  have valid := chunkHeaderV2_valid (UInt32.ofNat index) frame.isKey frame.timestampUs fits inside
  rw [parseChunk, if_pos rfl, payload, parseChunkV2_chunkV2Bytes _ _ valid]
  rfl

theorem wellFormed_chunk : (frame.chunk index number).wellFormed true := by
  have some := chunkCountOf_pos frame.data.length
  have most := chunkCountOf_le fits
  have count := toNat_chunkCount fits
  have place := toNat_number fits inside
  have length := toNat_dataLength fits
  have limit : v2ChunkCountMax.toNat = 4096 := rfl
  have nonzero : UInt16.ofNat frame.chunkCount ≠ 0 := by
    rw [ne_eq, ← UInt16.toNat_inj, count, UInt16.toNat_zero, chunkCount]
    omega
  have few : ¬ UInt16.ofNat frame.chunkCount > v2ChunkCountMax := by
    rw [gt_iff_lt, UInt16.lt_iff_toNat_lt, count, chunkCount]
    omega
  have small : ¬ (UInt32.ofNat frame.data.length).toNat > encodedFrameMax := by
    rw [length]
    omega
  have next : (UInt16.ofNat number + 1).toNat = number + 1 := by
    rw [chunkCount] at inside
    rw [UInt16.toNat_add, place]
    simp only [UInt16.toNat_one]
    omega
  have expected : (frame.chunk index number).expectedFragmentLen =
      (fragmentAt frame.data number).length := by
    rw [length_fragmentAt frame.data inside]
    simp only [Chunk.expectedFragmentLen, chunk, next, count, length]
    rfl
  rw [Chunk.wellFormed, expected]
  simp only [chunk, nonzero, few, length, count]
  simp [chunkCount, fits]

/-- What the decoder hands on for this chunk is the chunk that was sent. -/
theorem chunkOf_payload (seq : UInt32) (viaFec : Bool) :
    chunkOf true (.recovered seq (frame.payload index number) viaFec) =
      some (frame.chunk index number) := by
  rw [chunkOf, parseChunk_payload index fits inside, Option.filter_some,
    if_pos (wellFormed_chunk index fits inside)]

end SenderFrame

theorem sendFrame_eq (epoch : Epoch) (index : Nat) (seq : UInt32) (frame : SenderFrame)
    (fits : frame.data.length ≤ encodedFrameMax) :
    sendFrame epoch index seq frame =
      .ok ((List.range frame.chunkCount).map (fun number =>
        frame.message index number epoch seq)) := by
  have numbered : ((List.range frame.chunkCount).map (frame.payload index)).zipIdx =
      (List.range frame.chunkCount).map (fun number => (frame.payload index number, number)) := by
    apply List.ext_getElem <;> simp
  rw [sendFrame, chunkFrameV2_eq _ _ _ fits]
  change (((List.range frame.chunkCount).map (frame.payload index)).zipIdx.mapM (fun chunk =>
    encodeSymbolMsgV2 (.source epoch (seq + UInt32.ofNat chunk.2) chunk.1))) = _
  rw [numbered, List.mapM_map]
  apply mapM_ok
  intro number member
  rw [Function.comp_apply]
  exact frame.encode_payload index number epoch seq

/-- Every frame within the size limit can be sent. -/
theorem sendFrames_eq (epoch : Epoch) (first : Nat) (seq : UInt32) (frames : List SenderFrame)
    (fits : ∀ frame ∈ frames, frame.data.length ≤ encodedFrameMax) :
    ∃ sent, sendFrames epoch first seq frames = .ok sent ∧ sent.length = frames.length ∧
      ∀ (index : Nat) (frame : SenderFrame), frames[index]? = some frame → ∃ start,
        sent[index]? = some ((List.range frame.chunkCount).map (fun number =>
          frame.message (first + index) number epoch start)) := by
  induction frames generalizing first seq with
  | nil => exact ⟨[], rfl, rfl, by simp⟩
  | cons frame rest ih =>
    have here := sendFrame_eq epoch first seq frame (fits frame List.mem_cons_self)
    obtain ⟨sent, later, length, each⟩ := ih (first + 1)
      (seq + UInt32.ofNat ((List.range frame.chunkCount).map (fun number =>
        frame.message first number epoch seq)).length)
      (fun other member => fits other (List.mem_cons_of_mem _ member))
    refine ⟨(List.range frame.chunkCount).map (fun number =>
      frame.message first number epoch seq) :: sent, ?_, by simp [length],
      fun index other found => ?_⟩
    · rw [sendFrames, here]
      simp only [bind, Except.bind, later]
      rfl
    · cases index with
      | zero =>
        rw [List.getElem?_cons_zero, Option.some.injEq] at found
        subst found
        exact ⟨seq, by simp⟩
      | succ index =>
        rw [List.getElem?_cons_succ] at found
        obtain ⟨start, placed⟩ := each index other found
        refine ⟨start, ?_⟩
        rw [List.getElem?_cons_succ, placed, Nat.add_assoc, Nat.add_comm 1]

end BetterParsec
