import BetterParsec.Video.Checked
import BetterParsec.Video.Order

set_option autoImplicit false
set_option linter.all false

/-!
# Exact bookkeeping

After every call the key vectors, the byte count and the part counters of the
receiver are exact and within their bounds, so none of its subtractions and
`expect`s can fail, and it does what `VideoReceiver` does.
-/

namespace BetterParsec

namespace PendingFrame

def storedBytes (frame : PendingFrame) : Nat :=
  (frame.parts.map (fun part => (part.getD []).length)).sum

-- The counters of a frame agree with its slots.
structure Accounted (frame : PendingFrame) : Prop where
  tallied : frame.Tallied
  bytes : frame.bytes = frame.storedBytes

theorem accounted_openFrame (chunk : Chunk) (isV2 : Bool) :
    (chunk.openFrame isV2).Accounted ∧ (chunk.openFrame isV2).storedBytes = 0 := by
  have empty : (chunk.openFrame isV2).storedBytes = 0 := by
    simp [Chunk.openFrame, storedBytes]
  exact ⟨⟨tallied_openFrame chunk isV2, empty.symm⟩, empty⟩

theorem sum_set_none (parts : List (Option (List UInt8))) (index : Nat) (fragment : List UInt8)
    (free : parts[index]? = some none) :
    ((parts.set index (some fragment)).map (fun part => (part.getD []).length)).sum =
      (parts.map (fun part => (part.getD []).length)).sum + fragment.length := by
  induction parts generalizing index with
  | nil => simp at free
  | cons part rest ih =>
    cases index with
    | zero =>
      have empty : part = none := by simpa using free
      simp [empty]
      omega
    | succ index =>
      have later := ih index (by simpa using free)
      simp only [List.set_cons_succ, List.map_cons, List.sum_cons, later]
      omega

theorem storedBytes_store {frame : PendingFrame} {chunk : Chunk} (awaits : frame.awaits chunk)
    (viaFec : Bool) :
    (frame.store chunk viaFec).storedBytes = frame.storedBytes + chunk.fragment.length :=
  sum_set_none frame.parts _ chunk.fragment (of_decide_eq_true awaits)

theorem Accounted.store {frame : PendingFrame} (accounted : frame.Accounted) {chunk : Chunk}
    (awaits : frame.awaits chunk) (viaFec : Bool) : (frame.store chunk viaFec).Accounted := by
  refine ⟨accounted.tallied.store awaits viaFec, ?_⟩
  rw [storedBytes_store awaits, ← accounted.bytes]
  rfl

theorem Accounted.whole {frame : PendingFrame} (accounted : frame.Accounted)
    (full : frame.receivedCount = frame.chunkCount.toNat) :
    ∃ data, joinParts frame.parts = some data := by
  apply joinParts_of_full
  rw [← accounted.tallied.received, full, accounted.tallied.slots]

end PendingFrame

namespace CheckedReceiver

-- The books are right, except that a pending frame may have all its parts.
structure Balanced (rx : CheckedReceiver) : Prop where
  pendingListed : Assoc.Listed rx.pendingOrder rx.pending
  completedListed : Assoc.Listed rx.completedOrder rx.completed
  apart : ∀ key ∈ rx.pending, key ∉ rx.completed
  few : rx.pending.keys.card + rx.completed.keys.card ≤ maxPendingFrames
  buffered : rx.bufferedBytes = Assoc.weight PendingFrame.storedBytes rx.pending +
    Assoc.weight (·.frame.storedBytes) rx.completed
  capped : rx.bufferedBytes ≤ rxDecoderMaxBytes.toNat
  accounted : ∀ key frame, rx.pending.lookup key = some frame → frame.Accounted
  whole : ∀ key found, rx.completed.lookup key = some found →
    found.frame.Accounted ∧ ∃ data, PendingFrame.joinParts found.frame.parts = some data

-- The books are right, and every pending frame misses a part.
structure Exact (rx : CheckedReceiver) : Prop extends rx.Balanced where
  unfinished : ∀ key frame, rx.pending.lookup key = some frame →
    frame.receivedCount < frame.chunkCount.toNat

theorem exact_discontinue (rx : CheckedReceiver) (epoch : UInt32) (reason : DiscontinuityReason) :
    (rx.discontinue epoch reason).1.Exact where
  pendingListed := Assoc.listed_empty
  completedListed := Assoc.listed_empty
  apart := by simp [discontinue, Finmap.notMem_empty]
  few := by simp [discontinue]
  buffered := rfl
  capped := Nat.zero_le _
  accounted := by simp [discontinue]
  whole := by simp [discontinue]
  unfinished := by simp [discontinue]

/-- The books are these five fields. -/
theorem Exact.congr {rx other : CheckedReceiver} (exact : rx.Exact)
    (pending : other.pending = rx.pending) (pendingOrder : other.pendingOrder = rx.pendingOrder)
    (completed : other.completed = rx.completed)
    (completedOrder : other.completedOrder = rx.completedOrder)
    (bufferedBytes : other.bufferedBytes = rx.bufferedBytes) : other.Exact := by
  obtain ⟨⟨pendingListed, completedListed, apart, few, buffered, capped, accounted, whole⟩,
    unfinished⟩ := exact
  rw [← pending, ← pendingOrder] at pendingListed
  rw [← completed, ← completedOrder] at completedListed
  rw [← pending, ← completed] at apart few
  rw [← bufferedBytes, ← pending, ← completed] at buffered
  rw [← bufferedBytes] at capped
  rw [← pending] at accounted unfinished
  rw [← completed] at whole
  exact ⟨⟨pendingListed, completedListed, apart, few, buffered, capped, accounted, whole⟩,
    unfinished⟩

theorem lookup_insert_some {V : Type} {table : FrameTable V} {key other : UInt32 × UInt32}
    {value found : V} (held : (table.insert key value).lookup other = some found) :
    other = key ∧ found = value ∨ table.lookup other = some found := by
  by_cases same : other = key
  · subst same
    rw [Finmap.lookup_insert, Option.some.injEq] at held
    exact Or.inl ⟨rfl, held.symm⟩
  · rw [Finmap.lookup_insert_of_ne _ same] at held
    exact Or.inr held

theorem lookup_of_erase {V : Type} {table : FrameTable V} {key other : UInt32 × UInt32} {found : V}
    (held : (table.erase key).lookup other = some found) :
    other ≠ key ∧ table.lookup other = some found := by
  by_cases same : other = key
  · subst same
    simp [Finmap.lookup_erase] at held
  · rw [Finmap.lookup_erase_ne same] at held
    exact ⟨same, held⟩

theorem Exact.openPending {rx : CheckedReceiver} (exact : rx.Exact) {key : UInt32 × UInt32}
    (fresh : key ∉ rx.pending) (absent : key ∉ rx.completed)
    (room : rx.pendingOrder.length + rx.completedOrder.length < maxPendingFrames) (chunk : Chunk)
    (isV2 : Bool) (counted : chunk.chunkCount ≠ 0) :
    (rx.openPending key (chunk.openFrame isV2)).Exact := by
  obtain ⟨accounted, empty⟩ := PendingFrame.accounted_openFrame chunk isV2
  have listed := exact.pendingListed.push fresh (chunk.openFrame isV2)
  rw [exact.pendingListed.length, exact.completedListed.length] at room
  refine ⟨⟨listed, exact.completedListed, ?_, ?_, ?_, exact.capped, ?_, exact.whole⟩, ?_⟩
  · intro other member
    obtain rfl | member := Finmap.mem_insert.mp member
    · exact absent
    · exact exact.apart other member
  · have grown := listed.length
    rw [List.length_append, List.length_singleton, exact.pendingListed.length] at grown
    simp only [CheckedReceiver.openPending]
    omega
  · rw [CheckedReceiver.openPending, Assoc.weight_insert _ fresh, empty, Nat.zero_add]
    exact exact.buffered
  · intro other frame held
    obtain ⟨-, rfl⟩ | held := lookup_insert_some held
    · exact accounted
    · exact exact.accounted other frame held
  · intro other frame held
    obtain ⟨-, rfl⟩ | held := lookup_insert_some held
    · have positive : chunk.chunkCount.toNat ≠ 0 := by
        intro zero
        exact counted (UInt16.toNat.inj zero)
      exact Nat.pos_of_ne_zero positive
    · exact exact.unfinished other frame held

theorem Balanced.updatePending {rx : CheckedReceiver} (balanced : rx.Balanced)
    {key : UInt32 × UInt32} {frame : PendingFrame} {chunk : Chunk}
    (held : rx.pending.lookup key = some frame) (awaits : frame.awaits chunk)
    (fits : rx.bufferFull chunk.fragment = false) (viaFec : Bool) :
    (rx.updatePending key (frame.store chunk viaFec) chunk.fragment.length).Balanced := by
  have member := Finmap.mem_of_lookup_eq_some held
  have listed := balanced.pendingListed.set member (frame.store chunk viaFec)
  have weighed := Assoc.weight_set PendingFrame.storedBytes held (frame.store chunk viaFec)
  rw [PendingFrame.storedBytes_store awaits] at weighed
  refine ⟨listed, balanced.completedListed, ?_, ?_, ?_, ?_, ?_, balanced.whole⟩
  · intro other found
    obtain rfl | found := Finmap.mem_insert.mp found
    · exact balanced.apart _ member
    · exact balanced.apart other found
  · have same := listed.length
    rw [balanced.pendingListed.length] at same
    have few := balanced.few
    simp only [CheckedReceiver.updatePending]
    omega
  · have buffered := balanced.buffered
    simp only [CheckedReceiver.updatePending]
    omega
  · simpa [CheckedReceiver.updatePending, bufferFull] using fits
  · intro other found lookup
    obtain ⟨-, rfl⟩ | lookup := lookup_insert_some lookup
    · exact (balanced.accounted key frame held).store awaits viaFec
    · exact balanced.accounted other found lookup

-- All frames but the one under `key` miss a part.
def UnfinishedBut (key : UInt32 × UInt32) (rx : CheckedReceiver) : Prop :=
  ∀ other frame, rx.pending.lookup other = some frame → other ≠ key →
    frame.receivedCount < frame.chunkCount.toNat

theorem Balanced.dropFrame {rx : CheckedReceiver} (balanced : rx.Balanced) {key : UInt32 × UInt32}
    {frame : PendingFrame} (held : rx.pending.lookup key = some frame)
    (others : rx.UnfinishedBut key) :
    ∃ next, (rx.removePending key).dropFrame key frame = some (next, []) ∧ next.Exact ∧
      next = { rx.removePending key with
        bufferedBytes := rx.bufferedBytes - frame.bytes
        framesDroppedAwaitingIdr := rx.framesDroppedAwaitingIdr + 1
        nextFrameId := if rx.nextFrameId = some key.2 then none else rx.nextFrameId } := by
  have weighed := Assoc.weight_erase PendingFrame.storedBytes held
  have bytes := (balanced.accounted key frame held).bytes
  have buffered := balanced.buffered
  have fits : frame.bytes ≤ rx.bufferedBytes := by omega
  refine ⟨_, by simp [CheckedReceiver.dropFrame, removePending, checkedSub, fits], ?_, rfl⟩
  refine ⟨⟨balanced.pendingListed.remove key, balanced.completedListed, ?_, ?_, ?_, ?_, ?_,
    balanced.whole⟩, ?_⟩
  · intro other member
    exact balanced.apart other (Finmap.mem_erase.mp member).2
  · have fewer := Finset.card_erase_le (s := rx.pending.keys) (a := key)
    have few := balanced.few
    simp only [removePending, Finmap.keys_erase]
    omega
  · simp only [removePending]
    omega
  · have capped := balanced.capped
    simp only
    omega
  · intro other found lookup
    exact balanced.accounted other found (lookup_of_erase lookup).2
  · intro other found lookup
    exact others other found (lookup_of_erase lookup).2 (lookup_of_erase lookup).1

theorem Balanced.queueFrame {rx : CheckedReceiver} (balanced : rx.Balanced) {key : UInt32 × UInt32}
    {frame : PendingFrame} (held : rx.pending.lookup key = some frame)
    (full : frame.receivedCount = frame.chunkCount.toNat) (others : rx.UnfinishedBut key)
    (nowMs : Nat) : ((rx.removePending key).queueFrame key frame nowMs).Exact := by
  have member := Finmap.mem_of_lookup_eq_some held
  have absent := balanced.apart key member
  have accounted := balanced.accounted key frame held
  have listed := balanced.completedListed.push absent ⟨key.2, frame, nowMs⟩
  refine ⟨⟨balanced.pendingListed.remove key, listed, ?_, ?_, ?_, balanced.capped, ?_, ?_⟩, ?_⟩
  · intro other found queued
    obtain ⟨different, found⟩ := Finmap.mem_erase.mp found
    obtain same | queued := Finmap.mem_insert.mp queued
    · exact different same
    · exact balanced.apart other found queued
  · have fewer := Finset.card_erase_of_mem (Finmap.mem_keys.mpr member)
    have grown := listed.length
    rw [List.length_append, List.length_singleton, balanced.completedListed.length] at grown
    have positive : 0 < rx.pending.keys.card := Finset.card_pos.mpr ⟨key, Finmap.mem_keys.mpr member⟩
    have few := balanced.few
    simp only [CheckedReceiver.queueFrame, removePending, Finmap.keys_erase]
    omega
  · have weighed := Assoc.weight_erase PendingFrame.storedBytes held
    have buffered := balanced.buffered
    simp only [CheckedReceiver.queueFrame, removePending, Assoc.weight_insert _ absent]
    omega
  · intro other found lookup
    exact balanced.accounted other found (lookup_of_erase lookup).2
  · intro other found lookup
    obtain ⟨-, rfl⟩ | lookup := lookup_insert_some lookup
    · exact ⟨accounted, accounted.whole full⟩
    · exact balanced.whole other found lookup
  · intro other found lookup
    exact others other found (lookup_of_erase lookup).2 (lookup_of_erase lookup).1

theorem Exact.removeCompleted {rx : CheckedReceiver} (exact : rx.Exact) {key : UInt32 × UInt32}
    {found : CompletedFrame} (queued : rx.completed.lookup key = some found) :
    found.frame.bytes ≤ rx.bufferedBytes ∧
      { rx.removeCompleted key with
        bufferedBytes := rx.bufferedBytes - found.frame.bytes }.Exact := by
  have weighed := Assoc.weight_erase (fun found : CompletedFrame => found.frame.storedBytes) queued
  have bytes := (exact.whole key found queued).1.bytes
  have buffered := exact.buffered
  have capped := exact.capped
  refine ⟨by omega, ⟨exact.pendingListed, exact.completedListed.remove key, ?_, ?_, ?_, ?_,
    exact.accounted, ?_⟩, exact.unfinished⟩
  · intro other member erased
    exact exact.apart other member (Finmap.mem_erase.mp erased).2
  · have fewer := Finset.card_erase_le (s := rx.completed.keys) (a := key)
    have few := exact.few
    simp only [CheckedReceiver.removeCompleted, Finmap.keys_erase]
    omega
  · simp only [CheckedReceiver.removeCompleted]
    omega
  · simp only
    omega
  · intro other later lookup
    exact exact.whole other later (lookup_of_erase lookup).2

-- The receiver without its key vectors, over tables that list their entries.
def plain (rx : CheckedReceiver) (pending : FrameMap PendingFrame)
    (completed : FrameMap CompletedFrame) : VideoReceiver :=
  { decoder := rx.decoder
    pending := pending
    completed := completed
    bufferedBytes := rx.bufferedBytes
    activeEpoch := rx.activeEpoch
    nextFrameId := rx.nextFrameId
    needsIdr := rx.needsIdr
    awaitingIdr := rx.awaitingIdr
    lastTimestampUs := rx.lastTimestampUs
    symbolsSinceAck := rx.symbolsSinceAck
    lastAckTimeMs := rx.lastAckTimeMs
    lastAckedHighest := rx.lastAckedHighest
    framesRecovered := rx.framesRecovered
    framesDroppedAwaitingIdr := rx.framesDroppedAwaitingIdr }

-- The order of the pending frames is not read; that of the completed ones is.
structure Reads (rx : CheckedReceiver) (pending : FrameMap PendingFrame)
    (completed : FrameMap CompletedFrame) : Prop where
  held : rx.pending = pending.toFinmap
  queued : rx.completed = completed.toFinmap
  order : rx.completedOrder = completed.keys.reverse

-- The books are exact, and the rest is the state of the model.
def Tracks (rx : CheckedReceiver) (model : VideoReceiver) : Prop :=
  rx.Exact ∧ ∃ pending completed, model = rx.plain pending completed ∧ rx.Reads pending completed

open Refinement

theorem Tracks.discontinue {rx : CheckedReceiver} {model : VideoReceiver} (tracks : rx.Tracks model)
    (epoch : UInt32) (reason : DiscontinuityReason) :
    Matches Tracks (some (rx.discontinue epoch reason)) (model.discontinue epoch reason) := by
  obtain ⟨-, pending, completed, rfl, -⟩ := tracks
  exact ⟨_, rfl, rx.exact_discontinue epoch reason, ∅, ∅, rfl, rfl, rfl, rfl⟩

section Intake

variable {rx : CheckedReceiver} {pending : FrameMap PendingFrame}
  {completed : FrameMap CompletedFrame} {key : UInt32 × UInt32} {frame : PendingFrame}

theorem Reads.lookup (reads : rx.Reads pending completed) (key : UInt32 × UInt32) :
    rx.pending.lookup key = pending.lookup key := by
  rw [reads.held, Finmap.lookup_toFinmap]

theorem Reads.lookup_completed (reads : rx.Reads pending completed) (key : UInt32 × UInt32) :
    rx.completed.lookup key = completed.lookup key := by
  rw [reads.queued, Finmap.lookup_toFinmap]

theorem Balanced.completeFrame (balanced : rx.Balanced) (reads : rx.Reads pending completed)
    (held : rx.pending.lookup key = some frame)
    (full : frame.receivedCount = frame.chunkCount.toNat) (others : rx.UnfinishedBut key)
    (nowMs : Nat) :
    Matches Tracks (rx.completeFrame key nowMs)
      ((rx.plain pending completed).completeFrame key frame nowMs, []) := by
  have removed : rx.pending.erase key = (pending.erase key).toFinmap := by
    rw [reads.held, Finmap.erase_toFinmap]
  unfold CheckedReceiver.completeFrame VideoReceiver.completeFrame
  simp only [held, Option.bind_eq_bind, Option.bind_some]
  by_cases gated : rx.awaitingIdr && !frame.isKey
  · have gated' : (rx.plain pending completed).awaitingIdr && !frame.isKey := gated
    rw [if_pos gated, if_pos gated']
    obtain ⟨next, dropped, exact, rfl⟩ := balanced.dropFrame held others
    exact ⟨_, dropped, exact, pending.erase key, completed, rfl, removed, reads.queued,
      reads.order⟩
  · rw [if_neg gated,
      if_neg (show ¬ ((rx.plain pending completed).awaitingIdr && !frame.isKey) from gated)]
    have absent : key ∉ completed := by
      rw [← Finmap.mem_toFinmap, ← reads.queued]
      exact balanced.apart key (Finmap.mem_of_lookup_eq_some held)
    refine ⟨_, rfl, balanced.queueFrame held full others nowMs, pending.erase key,
      completed.insert key ⟨key.2, frame, nowMs⟩, rfl, removed, ?_, ?_⟩
    · simp only [CheckedReceiver.queueFrame, removePending, reads.queued, Finmap.insert_toFinmap]
    · simp only [CheckedReceiver.queueFrame, removePending, reads.order,
        Assoc.keys_insert_fresh _ _ absent, List.reverse_cons]

theorem Exact.storeChunk (exact : rx.Exact) (reads : rx.Reads pending completed)
    (held : rx.pending.lookup key = some frame) (isV2 : Bool) (chunk : Chunk) (viaFec : Bool)
    (nowMs : Nat) :
    Matches Tracks (rx.storeChunk key isV2 chunk viaFec nowMs)
      ((rx.plain pending completed).storeChunk key frame isV2 chunk viaFec nowMs) := by
  have tracks : rx.Tracks (rx.plain pending completed) := ⟨exact, pending, completed, rfl, reads⟩
  unfold CheckedReceiver.storeChunk VideoReceiver.storeChunk
  simp only [held, Option.any_some, Option.bind_eq_bind, Option.bind_some]
  cases agrees : frame.metadataMatches isV2 chunk with
  | false => exact tracks.discontinue key.1 .metadataMismatch
  | true =>
    simp only [Bool.not_true, Bool.false_eq_true, if_false]
    cases awaits : frame.awaits chunk with
    | false => exact matches_some tracks []
    | true =>
      simp only [Bool.not_true, Bool.false_eq_true, if_false]
      by_cases full : rx.bufferFull chunk.fragment
      · rw [if_pos full,
          if_pos (show (rx.plain pending completed).bufferFull chunk.fragment from full)]
        exact tracks.discontinue key.1 .memoryCap
      · rw [if_neg full,
          if_neg (show ¬ (rx.plain pending completed).bufferFull chunk.fragment from full)]
        have fits := Bool.not_eq_true _ ▸ full
        have grown := exact.toBalanced.updatePending held awaits fits viaFec
        have unfinished := exact.unfinished key frame held
        have bounded : frame.receivedCount + 1 < 2 ^ 16 := by
          have := frame.chunkCount.toNat_lt
          omega
        have stored : (rx.updatePending key (frame.store chunk viaFec)
            chunk.fragment.length).Reads (pending.insert key (frame.store chunk viaFec))
            completed := by
          refine ⟨?_, reads.queued, reads.order⟩
          simp only [CheckedReceiver.updatePending, reads.held, Finmap.insert_toFinmap]
        simp only [checkedSucc, bounded, if_true,
          Option.bind_some]
        by_cases full : frame.receivedCount + 1 = frame.chunkCount.toNat
        · have full' : (frame.store chunk viaFec).receivedCount =
              (frame.store chunk viaFec).chunkCount.toNat := full
          rw [if_neg (not_not_intro full), if_neg (not_not_intro full')]
          refine grown.completeFrame stored (Finmap.lookup_insert _) full' ?_ nowMs
          intro other found lookup different
          obtain ⟨same, -⟩ | lookup := lookup_insert_some lookup
          · exact absurd same different
          · exact exact.unfinished other found lookup
        · have part : ¬ (frame.store chunk viaFec).receivedCount =
              (frame.store chunk viaFec).chunkCount.toNat := full
          rw [if_pos full, if_pos part]
          refine ⟨_, rfl, ⟨grown, ?_⟩, _, _, rfl, stored⟩
          intro other found lookup
          obtain ⟨-, rfl⟩ | lookup := lookup_insert_some lookup
          · have received : (frame.store chunk viaFec).receivedCount = frame.receivedCount + 1 := rfl
            have count : (frame.store chunk viaFec).chunkCount = frame.chunkCount := rfl
            rw [received, count]
            omega
          · exact exact.unfinished other found lookup

end Intake

theorem parseChunk_index {payload : List UInt8} {chunk : Chunk}
    (parsed : parseChunk true payload = some chunk) : chunk.chunkIndex < chunk.chunkCount := by
  simp only [parseChunk, if_true] at parsed
  cases read : parseChunkV2 payload with
  | error => simp [read] at parsed
  | ok found =>
    obtain ⟨header, fragment⟩ := found
    simp only [read, Option.some.injEq] at parsed
    subst parsed
    have encoded := (parseChunkV2_iff payload fragment header).mp read
    by_contra outside
    have refused : header.chunkIndex ≥ header.chunkCount := UInt16.not_lt.mp outside
    simp only [encodeChunkV2, validateChunkV2, refused, if_true] at encoded
    split_ifs at encoded <;> cases encoded

theorem wellFormed_checked {isV2 : Bool} {payload : List UInt8} {chunk : Chunk}
    (parsed : parseChunk isV2 payload = some chunk) :
    chunk.checkedWellFormed isV2 = some (chunk.wellFormed isV2) := by
  unfold Chunk.checkedWellFormed Chunk.wellFormed
  by_cases bad : chunk.chunkCount = 0 ∨ chunk.chunkCount > v2ChunkCountMax ∨
      chunk.encodedLen.toNat > encodedFrameMax
  · rw [if_pos bad]
    have refused : (chunk.chunkCount = 0 || chunk.chunkCount > v2ChunkCountMax ||
        chunk.encodedLen.toNat > encodedFrameMax) = true := by simpa [or_assoc] using bad
    simp [refused]
  · rw [if_neg bad]
    have accepted : (chunk.chunkCount = 0 || chunk.chunkCount > v2ChunkCountMax ||
        chunk.encodedLen.toNat > encodedFrameMax) = false := by
      simpa [and_assoc] using bad
    simp only [accepted, Bool.not_false, Bool.true_and]
    cases isV2 with
    | false => rfl
    | true =>
      by_cases counted : chunk.chunkCount.toNat = chunkCountOf chunk.encodedLen.toNat
      · have inside : chunk.chunkIndex.toNat < chunk.chunkCount.toNat := parseChunk_index parsed
        have bound := chunk.chunkCount.toNat_lt
        have next : (chunk.chunkIndex + 1).toNat = chunk.chunkIndex.toNat + 1 := by
          rw [UInt16.toNat_add]
          exact Nat.mod_eq_of_lt (by simp; omega)
        have enough : chunkV2FragmentMax * (chunk.chunkCount.toNat - 1) ≤
            chunk.encodedLen.toNat := by
          rw [counted]
          unfold chunkCountOf divCeil chunkV2FragmentMax
          omega
        have expected : chunk.checkedFragmentLen = some chunk.expectedFragmentLen := by
          unfold Chunk.checkedFragmentLen Chunk.expectedFragmentLen checkedSucc checkedSub
          rw [if_pos (by omega), next]
          simp only [Option.bind_eq_bind, Option.bind_some]
          split_ifs with last
          · simp [enough]
          · omega
          · rfl
        simp [counted, expected]
      · simp [counted]

theorem Exact.sizes {rx : CheckedReceiver} (exact : rx.Exact) {pending : FrameMap PendingFrame}
    {completed : FrameMap CompletedFrame} (reads : rx.Reads pending completed) :
    rx.pendingOrder.length + rx.completedOrder.length = pending.size + completed.size := by
  have held : rx.pendingOrder.length = pending.size := by
    rw [exact.pendingListed.length, reads.held]
    rfl
  rw [held, reads.order, List.length_reverse]
  rfl

theorem Tracks.admitChunk {rx : CheckedReceiver} {model : VideoReceiver} (tracks : rx.Tracks model)
    (epoch : UInt32) (isV2 : Bool) (chunk : Chunk) (viaFec : Bool) (nowMs : Nat)
    (counted : chunk.chunkCount ≠ 0) :
    Matches Tracks (rx.admitChunk epoch isV2 chunk viaFec nowMs)
      (model.admitChunk epoch isV2 chunk viaFec nowMs) := by
  have tracked := tracks
  obtain ⟨exact, pending, completed, rfl, reads⟩ := tracks
  unfold CheckedReceiver.admitChunk
  cases queued : completed.lookup (epoch, chunk.frameId) with
  | some done =>
    have member : (epoch, chunk.frameId) ∈ rx.completed :=
      Finmap.mem_of_lookup_eq_some ((reads.lookup_completed _).trans queued)
    rw [if_pos member]
    have queued' : (rx.plain pending completed).completed.lookup (epoch, chunk.frameId) = some done :=
      queued
    simp only [VideoReceiver.admitChunk, queued', Option.isSome_some, if_true]
    exact matches_some tracked []
  | none =>
    have absent : (epoch, chunk.frameId) ∉ rx.completed :=
      Finmap.lookup_eq_none.mp ((reads.lookup_completed _).trans queued)
    have queued' : (rx.plain pending completed).completed.lookup (epoch, chunk.frameId) = none :=
      queued
    rw [if_neg absent]
    cases held : pending.lookup (epoch, chunk.frameId) with
    | some frame =>
      have found := (reads.lookup (epoch, chunk.frameId)).trans held
      rw [if_pos (Finmap.mem_of_lookup_eq_some found)]
      have stored := exact.storeChunk reads found isV2 chunk viaFec nowMs
      have held' : (rx.plain pending completed).pending.lookup (epoch, chunk.frameId) = some frame :=
        held
      simpa only [VideoReceiver.admitChunk, queued', held', Option.isSome_none, Bool.false_eq_true,
        if_false] using stored
    | none =>
      have fresh : (epoch, chunk.frameId) ∉ rx.pending :=
        Finmap.lookup_eq_none.mp ((reads.lookup _).trans held)
      rw [if_neg fresh]
      have held' : (rx.plain pending completed).pending.lookup (epoch, chunk.frameId) = none := held
      simp only [VideoReceiver.admitChunk, queued', held', Option.isSome_none, Bool.false_eq_true,
        if_false]
      have sizes := exact.sizes reads
      by_cases crowded : pending.size + completed.size ≥ maxPendingFrames
      · rw [if_pos (sizes ▸ crowded), if_pos (show (rx.plain pending completed).pending.size +
          (rx.plain pending completed).completed.size ≥ maxPendingFrames from crowded)]
        exact tracked.discontinue epoch .reassemblyEviction
      rw [if_neg (sizes ▸ crowded), if_neg (show ¬ (rx.plain pending completed).pending.size +
          (rx.plain pending completed).completed.size ≥ maxPendingFrames from crowded)]
      by_cases full : rx.bufferFull chunk.fragment
      · rw [if_pos full,
          if_pos (show (rx.plain pending completed).bufferFull chunk.fragment from full)]
        exact tracked.discontinue epoch .memoryCap
      · rw [if_neg full,
          if_neg (show ¬ (rx.plain pending completed).bufferFull chunk.fragment from full)]
        have room : rx.pendingOrder.length + rx.completedOrder.length < maxPendingFrames := by
          rw [exact.sizes reads]
          omega
        have opened := exact.openPending fresh absent room chunk isV2 counted
        refine opened.storeChunk ⟨?_, reads.queued, reads.order⟩ (Finmap.lookup_insert _) isV2 chunk
          viaFec nowMs
        simp only [CheckedReceiver.openPending, reads.held, Finmap.insert_toFinmap]
        rfl

theorem Tracks.deliverChunk {rx : CheckedReceiver} {model : VideoReceiver} (tracks : rx.Tracks model)
    (epoch : UInt32) (isV2 : Bool) (payload : List UInt8) (viaFec : Bool) (nowMs : Nat) :
    Matches Tracks (rx.deliverChunk epoch isV2 payload viaFec nowMs)
      (model.deliverChunk epoch isV2 payload viaFec nowMs) := by
  unfold CheckedReceiver.deliverChunk VideoReceiver.deliverChunk
  cases parsed : parseChunk isV2 payload with
  | none => exact matches_some tracks []
  | some chunk =>
    simp only [wellFormed_checked parsed, Option.bind_eq_bind, Option.bind_some]
    cases wellFormed : chunk.wellFormed isV2 with
    | false => exact matches_some tracks []
    | true =>
      apply tracks.admitChunk
      intro zero
      simp [Chunk.wellFormed, zero] at wellFormed

/-- The ACK gate writes its three fields in both receivers alike. -/
theorem tickAck_plain (rx : CheckedReceiver) (pending : FrameMap PendingFrame)
    (completed : FrameMap CompletedFrame) (nowMs : Nat) :
    ∃ highest count time,
      (rx.tickAck nowMs).1 =
        { rx with lastAckedHighest := highest, symbolsSinceAck := count, lastAckTimeMs := time } ∧
      (rx.plain pending completed).tickAck nowMs =
        ((rx.tickAck nowMs).1.plain pending completed, (rx.tickAck nowMs).2) := by
  unfold CheckedReceiver.tickAck VideoReceiver.tickAck
  cases decoded : rx.decoder.highestFullyDecoded with
  | none =>
    have same : (rx.plain pending completed).decoder.highestFullyDecoded = none := decoded
    refine ⟨rx.lastAckedHighest, rx.symbolsSinceAck, rx.lastAckTimeMs, rfl, ?_⟩
    simp only [same]
  | some hfd =>
    have same : (rx.plain pending completed).decoder.highestFullyDecoded = some hfd := decoded
    simp only [same]
    by_cases stale : rx.lastAckedHighest.any (fun last => !seqAdvanced hfd last)
    · rw [if_pos stale, if_pos (show (rx.plain pending completed).lastAckedHighest.any
        (fun last => !seqAdvanced hfd last) from stale)]
      exact ⟨_, _, _, rfl, rfl⟩
    rw [if_neg stale, if_neg (show ¬ (rx.plain pending completed).lastAckedHighest.any
      (fun last => !seqAdvanced hfd last) from stale)]
    by_cases due : rx.symbolsSinceAck + 1 ≥ ackSymbolInterval ||
        nowMs - rx.lastAckTimeMs ≥ ackTimeIntervalMs
    · rw [if_pos due, if_pos (show (rx.plain pending completed).symbolsSinceAck + 1 ≥
        ackSymbolInterval || nowMs - (rx.plain pending completed).lastAckTimeMs ≥
        ackTimeIntervalMs from due)]
      exact ⟨_, _, _, rfl, rfl⟩
    · rw [if_neg due, if_neg (show ¬ ((rx.plain pending completed).symbolsSinceAck + 1 ≥
        ackSymbolInterval || nowMs - (rx.plain pending completed).lastAckTimeMs ≥
        ackTimeIntervalMs) from due)]
      exact ⟨_, _, _, rfl, rfl⟩

theorem Tracks.ackEvents {rx : CheckedReceiver} {model : VideoReceiver} (tracks : rx.Tracks model)
    (nowMs : Nat) : Matches Tracks (some (rx.ackEvents nowMs)) (model.ackEvents nowMs) := by
  obtain ⟨exact, pending, completed, rfl, reads⟩ := tracks
  obtain ⟨highest, count, time, state, same⟩ := rx.tickAck_plain pending completed nowMs
  refine ⟨(rx.tickAck nowMs).1, ?_, ?_⟩
  · rw [VideoReceiver.ackEvents, same]
    rfl
  · rw [VideoReceiver.ackEvents, same, state]
    exact ⟨exact.congr rfl rfl rfl rfl rfl, pending, completed, rfl, reads.held, reads.queued,
      reads.order⟩

theorem Tracks.deliverEvents {rx : CheckedReceiver} {model : VideoReceiver}
    (tracks : rx.Tracks model) (epoch : UInt32) (isV2 : Bool) (nowMs : Nat)
    (events : List DecoderEvent) :
    Matches Tracks (tryRun (CheckedReceiver.deliverEvent epoch isV2 nowMs) rx events)
      (Runs.run (VideoReceiver.deliverEvent epoch isV2 nowMs) model events) := by
  apply tryRun_matches _ tracks
  intro event _ rx model tracks
  cases event with
  | recovered seq payload viaFec =>
    rw [CheckedReceiver.deliverEvent, VideoReceiver.deliverEvent]
    refine Matches.andThen (tracks.deliverChunk epoch isV2 payload viaFec nowMs) ?_
    intro next tracks
    exact tracks.ackEvents nowMs
  | lossSpan | evicted => exact matches_some tracks []

theorem Tracks.takeFrame {rx : CheckedReceiver} {model : VideoReceiver} (tracks : rx.Tracks model)
    {expected : UInt32 × UInt32} {found : CompletedFrame}
    (queued : rx.completed.lookup expected = some found) :
    Matches Tracks (rx.takeFrame expected) (model.takeFrame expected found) ∧
      (model.takeFrame expected found).1.completed.size < model.completed.size := by
  obtain ⟨exact, pending, completed, rfl, reads⟩ := tracks
  obtain ⟨fits, removed⟩ := exact.removeCompleted queued
  obtain ⟨-, data, whole⟩ := exact.whole expected found queued
  have shrinks : FrameMap.size (completed.erase expected) < completed.size := by
    have member : expected ∈ completed.keys := by
      have found := Finmap.mem_of_lookup_eq_some queued
      rwa [reads.queued, Finmap.mem_toFinmap] at found
    rw [FrameMap.size, FrameMap.size, Assoc.keys_erase_filter]
    exact List.length_filter_lt_length_iff_exists.mpr ⟨expected, member, by simp⟩
  have erased : (rx.removeCompleted expected).Reads pending (completed.erase expected) := by
    refine ⟨reads.held, ?_, ?_⟩
    · simp only [CheckedReceiver.removeCompleted, reads.queued, Finmap.erase_toFinmap]
    · simp only [CheckedReceiver.removeCompleted, reads.order, Assoc.keys_erase_filter,
        List.filter_reverse]
  unfold CheckedReceiver.takeFrame CheckedReceiver.assembleFrame VideoReceiver.takeFrame
    VideoReceiver.assembleFrame
  have fits' : found.frame.bytes ≤ (rx.removeCompleted expected).bufferedBytes := fits
  cases intact : found.frame.intact found.frameId data with
  | false =>
    simp only [queued, whole, intact, checkedSub, fits', Option.bind_eq_bind, Option.bind_some,
      if_true, Bool.not_false]
    refine ⟨⟨_, rfl, ?_, ∅, ∅, rfl, rfl, rfl, rfl⟩, Nat.lt_of_le_of_lt (Nat.zero_le _) shrinks⟩
    exact (rx.exact_discontinue expected.1 .frameCrc).congr rfl rfl rfl rfl rfl
  | true =>
    simp only [queued, whole, intact, checkedSub, fits', Option.bind_eq_bind, Option.bind_some,
      if_true, Bool.not_true, Bool.false_eq_true, if_false]
    exact ⟨⟨_, rfl, removed.congr rfl rfl rfl rfl rfl, pending, completed.erase expected, rfl,
      erased.held, erased.queued, erased.order⟩, shrinks⟩

theorem Tracks.flushLoop {rx : CheckedReceiver} {model : VideoReceiver} (tracks : rx.Tracks model)
    (nowMs fuel : Nat) (enough : model.completed.size ≤ fuel) :
    Matches Tracks (CheckedReceiver.flushLoop nowMs (fuel + 1) rx)
      (VideoReceiver.flushLoop nowMs fuel model) := by
  induction fuel generalizing rx model with
  | zero =>
    obtain ⟨exact, pending, completed, rfl, reads⟩ := tracks
    have empty : completed.keys = [] := List.length_eq_zero_iff.mp (Nat.le_zero.mp enough)
    refine ⟨rx, ?_, exact, pending, completed, rfl, reads⟩
    simp [CheckedReceiver.flushLoop, VideoReceiver.flushLoop, reads.order, empty]
  | succ fuel ih =>
    have tracked := tracks
    obtain ⟨exact, pending, completed, rfl, reads⟩ := tracks
    have front : rx.completedOrder.head? = completed.entries.getLast?.map (·.1) := by
      rw [reads.order, List.head?_reverse, AList.keys, List.keys, List.getLast?_map]
    rw [CheckedReceiver.flushLoop, VideoReceiver.flushLoop, front]
    cases last : completed.entries.getLast? with
    | none =>
      have last' : (rx.plain pending completed).completed.entries.getLast? = none := last
      simp only [last', Option.map_none]
      exact matches_some tracked []
    | some entry =>
      obtain ⟨firstKey, first⟩ := entry
      have last' : (rx.plain pending completed).completed.entries.getLast? =
        some ⟨firstKey, first⟩ := last
      have oldest : rx.completed.lookup firstKey = some first := by
        rw [reads.lookup_completed]
        exact AList.mem_lookup_iff.mpr (List.mem_of_getLast? last)
      simp only [last', Option.map_some, oldest, Option.bind_eq_bind, Option.bind_some]
      cases turn : completed.lookup (firstKey.1, rx.nextFrameId.getD first.frameId) with
      | none =>
        have turn' : (rx.plain pending completed).completed.lookup
          (firstKey.1, (rx.plain pending completed).nextFrameId.getD first.frameId) = none := turn
        have absent : (firstKey.1, rx.nextFrameId.getD first.frameId) ∉ rx.completed :=
          Finmap.lookup_eq_none.mp ((reads.lookup_completed _).trans turn)
        have length : rx.completedOrder.length = completed.size := by
          rw [reads.order, List.length_reverse]
          rfl
        simp only [turn', absent, not_false_eq_true, if_true, length]
        by_cases early : completed.size ≤ reorderMaxCompletedFrames ∧
            nowMs - first.completedAtMs < reorderMaxWaitMs
        · have early' : ((rx.plain pending completed).completed.size ≤ reorderMaxCompletedFrames &&
              nowMs - first.completedAtMs < reorderMaxWaitMs) = true :=
            Bool.and_eq_true_iff.mpr ⟨decide_eq_true early.1, decide_eq_true early.2⟩
          rw [if_pos early, if_pos early']
          exact matches_some tracked []
        · have late : ¬ ((rx.plain pending completed).completed.size ≤ reorderMaxCompletedFrames &&
              nowMs - first.completedAtMs < reorderMaxWaitMs) = true := by
            intro both
            obtain ⟨few, soon⟩ := Bool.and_eq_true_iff.mp both
            exact early ⟨of_decide_eq_true few, of_decide_eq_true soon⟩
          rw [if_neg early, if_neg late]
          exact tracked.discontinue firstKey.1 .reorderGap
      | some found =>
        have turn' : (rx.plain pending completed).completed.lookup
          (firstKey.1, (rx.plain pending completed).nextFrameId.getD first.frameId) = some found :=
          turn
        have queued := (reads.lookup_completed _).trans turn
        simp only [turn', Finmap.mem_of_lookup_eq_some queued, not_true_eq_false, if_false]
        obtain ⟨taken, shrinks⟩ := tracked.takeFrame queued
        apply taken.andThen
        intro next tracks
        exact ih tracks (Nat.le_of_lt_succ (Nat.lt_of_lt_of_le shrinks enough))

theorem Tracks.flushReorder {rx : CheckedReceiver} {model : VideoReceiver}
    (tracks : rx.Tracks model) (nowMs : Nat) :
    Matches Tracks (rx.flushReorder nowMs) (model.flushReorder nowMs) := by
  have length : rx.completedOrder.length = model.completed.size := by
    obtain ⟨-, pending, completed, rfl, reads⟩ := tracks
    rw [reads.order, List.length_reverse]
    rfl
  rw [CheckedReceiver.flushReorder, length]
  exact tracks.flushLoop nowMs _ (Nat.le_refl _)

theorem Tracks.onSymbol {rx : CheckedReceiver} {model : VideoReceiver} (tracks : rx.Tracks model)
    (epoch : UInt32) (isV2 : Bool) (symbol : Symbol) (nowMs : Nat) :
    Matches Tracks (rx.onSymbol epoch isV2 symbol nowMs)
      (model.onSymbol epoch isV2 symbol nowMs) := by
  have decoder : rx.decoder = model.decoder := by
    obtain ⟨-, pending, completed, rfl, -⟩ := tracks
    rfl
  have decoded : (rx.decode symbol).Tracks (model.decode symbol) := by
    obtain ⟨exact, pending, completed, rfl, reads⟩ := tracks
    exact ⟨exact.congr rfl rfl rfl rfl rfl, pending, completed, rfl, reads.held, reads.queued,
      reads.order⟩
  unfold CheckedReceiver.onSymbol VideoReceiver.onSymbol
  rw [decoder]
  refine Matches.andThen (Matches.andThen ?_ ?_) ?_
  · unfold CheckedReceiver.discontinueOnLoss VideoReceiver.discontinueOnLoss
    split_ifs
    · exact decoded.discontinue epoch .fecEviction
    · exact matches_some decoded []
  · intro next tracks
    exact tracks.deliverEvents epoch isV2 nowMs _
  · intro next tracks
    exact tracks.flushReorder nowMs

theorem Tracks.acceptEpoch {rx : CheckedReceiver} {model : VideoReceiver} (tracks : rx.Tracks model)
    (epoch : UInt32) (isV2 : Bool) (nowMs : Nat) :
    rx.acceptEpoch epoch isV2 nowMs = none ∧ model.acceptEpoch epoch isV2 nowMs = none ∨
      ∃ accepted, model.acceptEpoch epoch isV2 nowMs = some accepted ∧
        Matches Tracks (rx.acceptEpoch epoch isV2 nowMs) accepted := by
  have tracked := tracks
  obtain ⟨exact, pending, completed, rfl, reads⟩ := tracks
  unfold CheckedReceiver.acceptEpoch VideoReceiver.acceptEpoch
  cases active : rx.activeEpoch with
  | none =>
    have active' : (rx.plain pending completed).activeEpoch = none := active
    simp only [active']
    exact Or.inr ⟨_, rfl, _, rfl, exact.congr rfl rfl rfl rfl rfl, pending, completed, rfl,
      reads.held, reads.queued, reads.order⟩
  | some current =>
    have active' : (rx.plain pending completed).activeEpoch = some current := active
    simp only [active']
    split_ifs
    · exact Or.inr ⟨_, rfl, matches_some tracked []⟩
    · right
      have entered : (rx.enterEpoch epoch nowMs).Tracks
          ((rx.plain pending completed).enterEpoch epoch nowMs) :=
        ⟨exact.congr rfl rfl rfl rfl rfl, pending, completed, rfl, reads.held, reads.queued,
          reads.order⟩
      exact ⟨_, rfl, entered.discontinue epoch .epochTransition⟩
    · exact Or.inl ⟨rfl, rfl⟩

theorem Tracks.onMessage {rx : CheckedReceiver} {model : VideoReceiver} (tracks : rx.Tracks model)
    (buf : List UInt8) (nowMs : Nat) :
    Matches Tracks (rx.onMessage buf nowMs) (model.onMessage buf nowMs) := by
  unfold CheckedReceiver.onMessage VideoReceiver.onMessage
  cases parsed : parseSymbolMsgVersioned buf with
  | error => exact matches_some tracks []
  | ok message =>
    dsimp only
    obtain ⟨refused, refused'⟩ | ⟨accepted, enters, ⟨state, entered, entered_tracks⟩⟩ :=
      tracks.acceptEpoch (VideoReceiver.symbolOf message).epoch
        (VideoReceiver.symbolOf message).isV2 nowMs
    · simp only [refused, refused']
      exact matches_some tracks []
    · simp only [entered, enters]
      refine Matches.andThen ⟨state, rfl, entered_tracks⟩ ?_
      intro next tracks
      exact tracks.onSymbol _ _ _ nowMs

theorem Tracks.call {rx : CheckedReceiver} {model : VideoReceiver} (tracks : rx.Tracks model)
    (input : RxCall) : Matches Tracks (rx.call input) (model.call input) := by
  cases input with
  | onMessage buf nowMs => exact tracks.onMessage buf nowMs
  | tickEvents nowMs =>
    rw [CheckedReceiver.call, CheckedReceiver.tickEvents, VideoReceiver.call,
      VideoReceiver.tickEvents]
    refine Matches.andThen (tracks.flushReorder nowMs) ?_
    intro next tracks
    exact tracks.ackEvents nowMs
  | tick nowMs => exact tracks.ackEvents nowMs
  | pollNeedsIdr =>
    obtain ⟨exact, pending, completed, rfl, reads⟩ := tracks
    exact ⟨_, rfl, exact.congr rfl rfl rfl rfl rfl, pending, completed, rfl, reads.held,
      reads.queued, reads.order⟩

theorem tracks_new (nowMs : Nat) : (CheckedReceiver.new nowMs).Tracks (.new nowMs) :=
  ⟨((CheckedReceiver.new nowMs).exact_discontinue 0 .reorderGap).congr rfl rfl rfl rfl rfl, ∅, ∅,
    rfl, rfl, rfl, rfl⟩

/-- No call of any run fails: the receiver emits what the model emits, and its books are exact. -/
theorem run_books_exact (nowMs : Nat) (calls : List RxCall) :
    ∃ rx, tryRun CheckedReceiver.call (.new nowMs) calls =
        some (rx, (Runs.run VideoReceiver.call (.new nowMs) calls).2) ∧ rx.Exact := by
  have reached : Matches Tracks (tryRun CheckedReceiver.call (.new nowMs) calls)
      (Runs.run VideoReceiver.call (.new nowMs) calls) :=
    tryRun_matches (fun input _ _ _ tracks => tracks.call input) (tracks_new nowMs)
  obtain ⟨rx, finished, tracks⟩ := reached
  exact ⟨rx, finished, tracks.1⟩

end CheckedReceiver

end BetterParsec
