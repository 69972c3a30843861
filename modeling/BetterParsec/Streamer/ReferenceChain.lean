import BetterParsec.Streamer.FecSender

set_option autoImplicit false
set_option linter.all false

/-!
# Reference chain

A receiver learns of a lost reference only from a gap between frame ids. Whether
a delta frame can go out behind a dropped one without such a gap is decided by
what the group of the delta lost: the frames accepted since the last key frame.
-/

namespace BetterParsec

-- A frame all of whose chunks reached the sink.
structure SentFrame where
  number : Nat
  frameId : UInt32
  isKey : Bool
  deriving DecidableEq

namespace SenderLog

def acceptedFrame : SenderLog → Option (Nat × Bool)
  | .accepted number isKey => some (number, isKey)
  | .dropped _ | .wire _ | .chunkSent _ _ _ | .sent _ _ _ => none

def droppedFrame : SenderLog → Option Nat
  | .dropped number => some number
  | .accepted _ _ | .wire _ | .chunkSent _ _ _ | .sent _ _ _ => none

def sentFrame : SenderLog → Option SentFrame
  | .sent number frameId isKey => some ⟨number, frameId, isKey⟩
  | .accepted _ _ | .dropped _ | .wire _ | .chunkSent _ _ _ => none

def accepts (log : List SenderLog) : List (Nat × Bool) := log.filterMap acceptedFrame

def drops (log : List SenderLog) : List Nat := log.filterMap droppedFrame

def wholes (log : List SenderLog) : List SentFrame := log.filterMap sentFrame

def keys (log : List SenderLog) : List Nat :=
  (accepts log).filterMap (fun frame => if frame.2 then some frame.1 else none)

@[simp] theorem accepts_append (first second : List SenderLog) :
    accepts (first ++ second) = accepts first ++ accepts second := List.filterMap_append

@[simp] theorem drops_append (first second : List SenderLog) :
    drops (first ++ second) = drops first ++ drops second := List.filterMap_append

@[simp] theorem wholes_append (first second : List SenderLog) :
    wholes (first ++ second) = wholes first ++ wholes second := List.filterMap_append

theorem mem_keys (log : List SenderLog) (number : Nat) :
    number ∈ keys log ↔ (number, true) ∈ accepts log := by
  simp [keys]

-- Some frame that went out whole has the id before `frameId`.
def Follows (log : List SenderLog) (frameId : UInt32) : Prop :=
  ∃ whole ∈ wholes log, whole.frameId + 1 = frameId

-- A chunk of a delta frame goes out under an id that directly follows a whole frame only after a
-- key frame newer than every frame dropped before the delta.
def ChainSafe (before : List SenderLog) : SenderLog → Prop
  | .chunkSent number frameId false =>
      ∀ lost ∈ drops before, lost < number → Follows before frameId →
        ∃ key ∈ wholes before, key.isKey ∧ lost < key.number
  | .chunkSent _ _ true | .accepted _ _ | .dropped _ | .wire _ | .sent _ _ _ => True

-- Nothing was dropped from the group of frame `number`: a key frame was accepted between every
-- dropped frame before it and the frame itself.
def GroupWhole (log : List SenderLog) (number : Nat) : Prop :=
  ∀ lost ∈ drops log, lost < number → ∃ key ∈ keys log, lost < key ∧ key < number

instance (log : List SenderLog) (frameId : UInt32) : Decidable (Follows log frameId) :=
  inferInstanceAs (Decidable (∃ whole ∈ wholes log, _))

instance (log : List SenderLog) (number : Nat) : Decidable (GroupWhole log number) :=
  inferInstanceAs (Decidable (∀ lost ∈ drops log, _))

instance (before : List SenderLog) (event : SenderLog) : Decidable (ChainSafe before event) :=
  match event with
  | .chunkSent _ _ false => inferInstanceAs (Decidable (∀ lost ∈ drops before, _))
  | .chunkSent _ _ true | .accepted _ _ | .dropped _ | .wire _ | .sent _ _ _ => .isTrue trivial

def Settled (log : List SenderLog) (number : Nat) : Prop :=
  number ∈ drops log ∨ ∃ whole ∈ wholes log, whole.number = number ∧ whole.isKey

theorem mem_keys_accepted (log : List SenderLog) (number key : Nat) (isKey : Bool) :
    key ∈ keys (log ++ [SenderLog.accepted number isKey]) ↔
      key ∈ keys log ∨ key = number ∧ isKey = true := by
  rw [mem_keys, mem_keys, accepts_append, List.mem_append]
  refine or_congr_right ?_
  simp [accepts, acceptedFrame, eq_comm]

theorem wholes_accepted (log : List SenderLog) (number : Nat) (isKey : Bool) :
    wholes (log ++ [SenderLog.accepted number isKey]) = wholes log := by
  simp [wholes, sentFrame]

theorem Settled.append {log : List SenderLog} {number : Nat} (settled : Settled log number)
    (more : List SenderLog) : Settled (log ++ more) number := by
  rcases settled with dropped | ⟨whole, member, same⟩
  · exact .inl (by simp [dropped])
  · exact .inr ⟨whole, by simp [member], same⟩

theorem Settled.kept {log later : List SenderLog} {number : Nat} (settled : Settled log number)
    (wholes_eq : wholes later = wholes log) (more : ∀ lost ∈ drops log, lost ∈ drops later) :
    Settled later number := by
  rw [Settled, wholes_eq]
  exact settled.imp_left (more number)

theorem keys_congr {log later : List SenderLog} (accepts_eq : accepts later = accepts log) :
    keys later = keys log := by
  rw [keys, keys, accepts_eq]

end SenderLog

open SenderLog

namespace FecSender

-- The chunk gets through to the sink: none of the checks before its send stops it.
def passes (sender : FecSender) (current : SendingFrame) (chunk : Payload) (now : Nat)
    (delivered : Bool) : Bool :=
  !current.frame.expired now && !sender.superseded && delivered &&
    (encodeSymbol sender.wireVersion sender.epoch (.source sender.nextSeq chunk)).isOk

-- The frame of which the next piece of the task gets a chunk through to the sink.
def chunkDue (sender : FecSender) (now : Nat) (delivered : Bool) : Option SendingFrame :=
  match sender.phase with
  | .sending current =>
      match current.repairs, current.chunks with
      | [], chunk :: _ => if sender.passes current chunk now delivered then some current else none
      | _ :: _, _ | [], [] => none
  | .waiting | .draining | .exited => none

-- A delta frame whose group lost a frame does not go out under an id that follows a whole frame.
def Unbroken (log : List SenderLog) (sender : FecSender) : SenderStep → Prop
  | .task now delivered =>
      ∀ current ∈ sender.chunkDue now delivered, current.frame.isKey = false →
        Follows log current.frameId → GroupWhole log current.number
  | .beginEnqueue _ _ _ _ | .commitEnqueue _ | .forwardControl _ | .requestIdr
  | .consumeNeedsIdr | .bumpGeneration | .dropHandle | .receive => True

end FecSender

-- What the log says about the frame being sent.
structure SendingFrame.Sound (log : List SenderLog) (queue : List QueuedFrame)
    (current : SendingFrame) : Prop where
  accepted : (current.number, current.frame.isKey) ∈ accepts log
  front : ∀ queued ∈ queue, current.number < queued.number
  cutDropped : current.cut = true → current.number ∈ drops log
  finished : current.chunks = [] → current.number ∈ drops log ∨
    ∃ whole ∈ wholes log, whole.number = current.number ∧ whole.isKey = current.frame.isKey
  sentBefore : ∀ whole ∈ wholes log, whole.number < current.number ∨
    whole.number = current.number ∧ whole.isKey = current.frame.isKey
  chain : current.frame.isKey = false → ∀ key ∈ keys log, key < current.number →
    Settled log key ∨ ∃ later ∈ keys log, key < later ∧ later < current.number

section Sending

variable {log later : List SenderLog} {queue left : List QueuedFrame} {current : SendingFrame}
  (sound : current.Sound log queue)

include sound

theorem SendingFrame.Sound.discard (accepts_eq : accepts later = accepts log)
    (wholes_eq : wholes later = wholes log) (more : ∀ number ∈ drops log, number ∈ drops later)
    (fewer : ∀ queued ∈ left, queued ∈ queue) : current.Sound later left := by
  have keys_eq := keys_congr accepts_eq
  constructor
  case accepted => exact accepts_eq ▸ sound.accepted
  case front => exact fun queued member => sound.front queued (fewer queued member)
  case cutDropped => exact fun cut => more _ (sound.cutDropped cut)
  case finished =>
    rw [wholes_eq]
    exact fun done => (sound.finished done).imp_left (more _)
  case sentBefore =>
    rw [wholes_eq]
    exact sound.sentBefore
  case chain =>
    rw [keys_eq]
    exact fun delta key known before =>
      (sound.chain delta key known before).imp_left (fun settled => settled.kept wholes_eq more)

theorem SendingFrame.Sound.accept {number : Nat} (below : current.number < number) (isKey : Bool)
    (entered : ∀ queued ∈ left, queued ∈ queue ∨ queued.number = number) :
    current.Sound (log ++ [SenderLog.accepted number isKey]) left := by
  constructor
  case accepted => simp [sound.accepted]
  case front =>
    intro queued member
    rcases entered queued member with member | rfl
    · exact sound.front queued member
    · exact below
  case cutDropped => exact fun cut => by simp [sound.cutDropped cut]
  case finished =>
    rw [wholes_accepted]
    exact fun done => (sound.finished done).imp_left (fun dropped => by simp [dropped])
  case sentBefore =>
    rw [wholes_accepted]
    exact sound.sentBefore
  case chain =>
    intro delta key known before
    rcases (mem_keys_accepted log _ key _).mp known with known | ⟨rfl, -⟩
    · rcases sound.chain delta key known before with settled | ⟨newer, known, between⟩
      · exact .inl (settled.append _)
      · exact .inr ⟨newer, (mem_keys_accepted _ _ _ _).mpr (.inl known), between⟩
    · exact absurd before (Nat.lt_asymm below)

end Sending

def FecSender.Holds (sender : FecSender) (number : Nat) : Prop :=
  (∃ queued ∈ sender.queue, queued.number = number) ∨
    ∃ current, sender.phase = .sending current ∧ current.number = number ∧ current.frame.isKey

structure FecSender.Ledger (log : List SenderLog) (sender : FecSender) : Prop where
  counted : ∀ frame ∈ accepts log, frame.1 < sender.accepted
  queued : ∀ queued ∈ sender.queue, (queued.number, queued.frame.isKey) ∈ accepts log
  ordered : sender.queue.Pairwise (fun older newer => older.number < newer.number)
  supersedes : ∀ key ∈ keys log, ∀ queued ∈ sender.queue,
    key < queued.number ∨ key = queued.number ∧ queued.frame.isKey
  sentAccepted : ∀ whole ∈ wholes log, (whole.number, whole.isKey) ∈ accepts log
  sentFront : ∀ whole ∈ wholes log, ∀ queued ∈ sender.queue, whole.number < queued.number
  traced : sender.phase ≠ .exited → ∀ key ∈ keys log,
    Settled log key ∨ sender.Holds key ∨ ∃ later ∈ keys log, key < later
  current : ∀ current, sender.phase = .sending current → current.Sound log sender.queue

namespace FecSender

variable {log later : List SenderLog} {sender next : FecSender}

theorem Ledger.start (ownGeneration generation : UInt32) (needsIdr : Bool)
    (wireVersion : WireVersion) (epoch : Epoch) :
    Ledger [] (spawn ownGeneration generation needsIdr wireVersion epoch) := by
  constructor <;> simp [spawn, accepts, wholes, keys]

section Changes

variable (ledger : Ledger log sender)

include ledger

/-- Frames leave the queue on record, or nothing the ledger speaks about changes. -/
theorem Ledger.discard (accepts_eq : accepts later = accepts log)
    (wholes_eq : wholes later = wholes log) (more : ∀ number ∈ drops log, number ∈ drops later)
    (accepted : next.accepted = sender.accepted) (phase : next.phase = sender.phase)
    (left : next.queue.Sublist sender.queue)
    (gone : ∀ queued ∈ sender.queue, queued ∈ next.queue ∨ queued.number ∈ drops later) :
    Ledger later next := by
  have keys_eq := keys_congr accepts_eq
  constructor
  case counted =>
    rw [accepts_eq, accepted]
    exact ledger.counted
  case queued =>
    rw [accepts_eq]
    exact fun queued member => ledger.queued queued (left.subset member)
  case ordered => exact ledger.ordered.sublist left
  case supersedes =>
    rw [keys_eq]
    exact fun key known queued member => ledger.supersedes key known queued (left.subset member)
  case sentAccepted =>
    rw [wholes_eq, accepts_eq]
    exact ledger.sentAccepted
  case sentFront =>
    rw [wholes_eq]
    exact fun whole known queued member => ledger.sentFront whole known queued (left.subset member)
  case traced =>
    rw [keys_eq, phase]
    intro running key known
    rcases ledger.traced running key known with was | (⟨queued, member, rfl⟩ | sending) | newer
    · exact .inl (was.kept wholes_eq more)
    · exact (gone queued member).elim
        (fun stays => .inr (.inl (.inl ⟨queued, stays, rfl⟩))) (fun lost => .inl (.inl lost))
    · exact .inr (.inl (.inr (by rwa [phase])))
    · exact .inr (.inr newer)
  case current =>
    intro current sending
    exact (ledger.current current (phase ▸ sending)).discard accepts_eq wholes_eq more left.subset

/-- A frame is accepted behind the queue, or in place of it if it is a key frame. -/
theorem Ledger.accept (frame : FecFrame) {isKey : Bool} (kind : frame.isKey = isKey)
    (accepted : next.accepted = sender.accepted + 1) (phase : next.phase = sender.phase)
    (queue : next.queue = (if isKey then [] else sender.queue) ++ [⟨sender.accepted, frame⟩]) :
    Ledger (log ++ [SenderLog.accepted sender.accepted isKey]) next := by
  subst kind
  have old_queued (queued : QueuedFrame) (member : queued ∈ next.queue) :
      queued ∈ sender.queue ∨ queued = ⟨sender.accepted, frame⟩ := by
    rw [queue, List.mem_append, List.mem_singleton] at member
    refine member.imp_left fun old => ?_
    split at old
    · simp at old
    · exact old
  have key_lt (key : Nat) (known : key ∈ keys log) : key < sender.accepted :=
    ledger.counted _ ((mem_keys log key).mp known)
  constructor
  case counted =>
    intro other known
    rw [accepts_append, List.mem_append] at known
    rcases known with known | known
    · have := ledger.counted other known
      omega
    · have : other = (sender.accepted, frame.isKey) := by
        simpa [accepts, acceptedFrame] using known
      simp [this, accepted]
  case queued =>
    intro queued member
    rcases old_queued queued member with member | rfl
    · simp [ledger.queued queued member]
    · simp [accepts, acceptedFrame]
  case ordered =>
    rw [queue, List.pairwise_append]
    refine ⟨by split; exacts [List.Pairwise.nil, ledger.ordered], List.pairwise_singleton _ _, ?_⟩
    intro older member newer last
    rw [List.mem_singleton.mp last]
    split at member
    · simp at member
    · exact ledger.counted _ (ledger.queued older member)
  case supersedes =>
    intro key known queued member
    rcases (mem_keys_accepted log _ key _).mp known with known | ⟨rfl, isKey⟩
    · rcases old_queued queued member with member | rfl
      · exact ledger.supersedes key known queued member
      · exact .inl (key_lt key known)
    · -- A key frame is alone in the queue that it enters.
      rw [queue, isKey] at member
      obtain rfl : queued = ⟨sender.accepted, frame⟩ := by simpa using member
      exact .inr ⟨rfl, isKey⟩
  case sentAccepted =>
    rw [wholes_accepted]
    intro whole known
    simp [ledger.sentAccepted whole known]
  case sentFront =>
    rw [wholes_accepted]
    intro whole known queued member
    rcases old_queued queued member with member | rfl
    · exact ledger.sentFront whole known queued member
    · exact ledger.counted _ (ledger.sentAccepted whole known)
  case traced =>
    intro running key known
    have fresh : (⟨sender.accepted, frame⟩ : QueuedFrame) ∈ next.queue := by simp [queue]
    rcases (mem_keys_accepted log _ key _).mp known with known | ⟨rfl, -⟩
    · cases isKey : frame.isKey with
      | true =>
        exact .inr (.inr ⟨sender.accepted, (mem_keys_accepted _ _ _ _).mpr (.inr ⟨rfl, rfl⟩),
          key_lt key known⟩)
      | false =>
        have stays (queued : QueuedFrame) (member : queued ∈ sender.queue) :
            queued ∈ next.queue := by simp [queue, isKey, member]
        rw [phase] at running
        rcases ledger.traced running key known with
          settled | (⟨queued, member, rfl⟩ | sending) | ⟨newer, known, above⟩
        · exact .inl (settled.append _)
        · exact .inr (.inl (.inl ⟨queued, stays queued member, rfl⟩))
        · exact .inr (.inl (.inr (by rwa [phase])))
        · exact .inr (.inr ⟨newer, (mem_keys_accepted _ _ _ _).mpr (.inl known), above⟩)
    · exact .inr (.inl (.inl ⟨_, fresh, rfl⟩))
  case current =>
    intro current sending
    have sound := ledger.current current (phase ▸ sending)
    have below := ledger.counted _ sound.accepted
    refine sound.accept below _ (fun queued member => ?_)
    exact (old_queued queued member).imp_right fun same => by rw [same]

/-- The task starts a drain, or ends its loop over the chunks or its drain. -/
theorem Ledger.rest (running : sender.phase ≠ .exited)
    (finished : ∀ current, sender.phase = .sending current → current.chunks = [])
    (accepted : next.accepted = sender.accepted) (queue : next.queue = sender.queue)
    (resting : ∀ current, next.phase ≠ .sending current) : Ledger log next := by
  constructor
  case counted => exact accepted ▸ ledger.counted
  case queued => exact queue ▸ ledger.queued
  case ordered => exact queue ▸ ledger.ordered
  case supersedes => exact queue ▸ ledger.supersedes
  case sentAccepted => exact ledger.sentAccepted
  case sentFront => exact queue ▸ ledger.sentFront
  case traced =>
    intro _ key known
    rcases ledger.traced running key known with
      settled | (queued | ⟨current, sending, rfl, isKey⟩) | newer
    · exact .inl settled
    · exact .inr (.inl (.inl (queue ▸ queued)))
    · -- The frame that was being sent is through.
      rcases (ledger.current current sending).finished (finished current sending) with
        dropped | ⟨whole, known, same, kind⟩
      · exact .inl (.inl dropped)
      · exact .inl (.inr ⟨whole, known, same, kind.trans isKey⟩)
    · exact .inr (.inr newer)
  case current => exact fun current sending => absurd sending (resting current)

/-- The task takes the oldest frame off the queue. -/
theorem Ledger.take {queued : QueuedFrame} {rest : List QueuedFrame} {frameId : UInt32}
    {chunks : List Payload} (draining : sender.phase = .draining)
    (queue : sender.queue = queued :: rest) (some_chunk : chunks ≠ [])
    (accepted : next.accepted = sender.accepted) (left : next.queue = rest)
    (phase : next.phase = .sending ⟨queued.number, queued.frame, frameId, chunks, [], false⟩) :
    Ledger log next := by
  have keys_behind (key : Nat) (known : key ∈ keys log) :
      key < queued.number ∨ key = queued.number ∧ queued.frame.isKey :=
    ledger.supersedes key known queued (by simp [queue])
  have above := List.pairwise_cons.mp (queue ▸ ledger.ordered)
  have tail (other : QueuedFrame) (member : other ∈ rest) : other ∈ sender.queue := by
    simp [queue, member]
  have traced (key : Nat) (known : key ∈ keys log) :
      Settled log key ∨ (∃ other ∈ sender.queue, other.number = key) ∨
        ∃ newer ∈ keys log, key < newer := by
    rcases ledger.traced (by simp [draining]) key known with
      settled | (waits | ⟨current, sending, -⟩) | newer
    · exact .inl settled
    · exact .inr (.inl waits)
    · simp [draining] at sending
    · exact .inr (.inr newer)
  constructor
  case counted => exact accepted ▸ ledger.counted
  case queued => exact left ▸ fun other member => ledger.queued other (tail other member)
  case ordered => exact left ▸ above.2
  case supersedes =>
    exact left ▸ fun key known other member => ledger.supersedes key known other (tail other member)
  case sentAccepted => exact ledger.sentAccepted
  case sentFront =>
    exact left ▸ fun whole known other member =>
      ledger.sentFront whole known other (tail other member)
  case traced =>
    intro _ key known
    rcases traced key known with settled | ⟨other, member, rfl⟩ | newer
    · exact .inl settled
    · rw [queue, List.mem_cons] at member
      rcases member with rfl | member
      · rcases keys_behind other.number known with before | ⟨-, isKey⟩
        · omega
        · exact .inr (.inl (.inr ⟨_, phase, rfl, isKey⟩))
      · exact .inr (.inl (.inl ⟨other, left ▸ member, rfl⟩))
    · exact .inr (.inr newer)
  case current =>
    intro current sending
    obtain rfl := TaskPhase.sending.inj (phase.symm.trans sending)
    constructor
    case accepted => exact ledger.queued queued (by simp [queue])
    case front => exact left ▸ above.1
    case cutDropped => simp
    case finished => exact fun none => absurd none some_chunk
    case sentBefore =>
      exact fun whole known => .inl (ledger.sentFront whole known queued (by simp [queue]))
    case chain =>
      intro delta key known before
      have delta : queued.frame.isKey = false := delta
      rcases traced key known with settled | ⟨other, member, rfl⟩ | ⟨newer, known, newer_above⟩
      · exact .inl settled
      · -- A key frame older than the head of the queue has left the queue.
        rw [queue, List.mem_cons] at member
        have before : other.number < queued.number := before
        rcases member with rfl | member
        · omega
        · have := above.1 other member
          omega
      · rcases keys_behind newer known with inside | ⟨-, isKey⟩
        · exact .inr ⟨newer, known, newer_above, inside⟩
        · simp [delta] at isKey

/-- The task goes on with the frame it is sending. -/
theorem Ledger.advance {current ahead : SendingFrame} (sending : sender.phase = .sending current)
    (accepted : next.accepted = sender.accepted) (queue : next.queue = sender.queue)
    (phase : next.phase = .sending ahead) (number : ahead.number = current.number)
    (frame : ahead.frame = current.frame) (accepts_eq : accepts later = accepts log)
    (more : ∀ number ∈ drops log, number ∈ drops later)
    (sent : ∀ whole ∈ wholes later, whole ∈ wholes log ∨
      whole.number = current.number ∧ whole.isKey = current.frame.isKey)
    (kept : ∀ whole ∈ wholes log, whole ∈ wholes later)
    (cut : ahead.cut = true → current.number ∈ drops later)
    (finished : ahead.chunks = [] → current.number ∈ drops later ∨
      ∃ whole ∈ wholes later, whole.number = current.number ∧
        whole.isKey = current.frame.isKey) :
    Ledger later next := by
  have keys_eq := keys_congr accepts_eq
  have settled (key : Nat) (was : Settled log key) : Settled later key :=
    was.imp (more key) (fun ⟨whole, known, same⟩ => ⟨whole, kept whole known, same⟩)
  have sound := ledger.current current sending
  constructor
  case counted =>
    rw [accepts_eq, accepted]
    exact ledger.counted
  case queued =>
    rw [accepts_eq, queue]
    exact ledger.queued
  case ordered => exact queue ▸ ledger.ordered
  case supersedes =>
    rw [keys_eq, queue]
    exact ledger.supersedes
  case sentAccepted =>
    rw [accepts_eq]
    intro whole known
    rcases sent whole known with known | ⟨same, kind⟩
    · exact ledger.sentAccepted whole known
    · rw [same, kind]
      exact sound.accepted
  case sentFront =>
    rw [queue]
    intro whole known queued member
    rcases sent whole known with known | ⟨same, -⟩
    · exact ledger.sentFront whole known queued member
    · rw [same]
      exact sound.front queued member
  case traced =>
    rw [keys_eq]
    intro _ key known
    rcases ledger.traced (by simp [sending]) key known with
      was | (queued | ⟨other, same, rfl, isKey⟩) | newer
    · exact .inl (settled key was)
    · exact .inr (.inl (.inl (queue ▸ queued)))
    · obtain rfl := TaskPhase.sending.inj (sending.symm.trans same)
      exact .inr (.inl (.inr ⟨ahead, phase, number, frame ▸ isKey⟩))
    · exact .inr (.inr newer)
  case current =>
    intro other same
    obtain rfl := TaskPhase.sending.inj (phase.symm.trans same)
    constructor
    case accepted =>
      rw [accepts_eq, number, frame]
      exact sound.accepted
    case front =>
      rw [queue, number]
      exact sound.front
    case cutDropped => exact number ▸ cut
    case finished =>
      rw [number, frame]
      exact finished
    case sentBefore =>
      rw [number, frame]
      exact fun whole known => (sent whole known).elim (sound.sentBefore whole) .inr
    case chain =>
      rw [keys_eq, number, frame]
      exact fun delta key known before =>
        (sound.chain delta key known before).imp_left (settled key)

theorem Ledger.stop (exit : FecSenderExit) : Ledger log (sender.stop exit) := by
  constructor
  case counted => exact ledger.counted
  case sentAccepted => exact ledger.sentAccepted
  all_goals simp [FecSender.stop]

end Changes

theorem chunksOf_ne_nil {wireVersion : WireVersion} {frameId : UInt32} {frame : FecFrame}
    {chunks : List Payload} (cut : chunksOf wireVersion frameId frame = .ok chunks) :
    chunks ≠ [] := by
  cases wireVersion with
  | v1 =>
    obtain rfl := Except.ok.inj cut
    exact chunkFrame_ne_nil _ _ _
  | v2 =>
    have cut : chunkFrameV2 frameId frame.isKey frame.timestampUs frame.data = .ok chunks := cut
    by_cases fits : frame.data.length ≤ encodedFrameMax
    · rw [chunkFrameV2_eq _ _ _ fits] at cut
      obtain rfl := Except.ok.inj cut
      have := chunkCountOf_pos frame.data.length
      simp only [ne_eq, List.map_eq_nil_iff, List.range_eq_nil]
      omega
    · rw [chunkFrameV2, if_pos (by omega)] at cut
      cases cut

/-- Steps that leave queue and task alone. -/
theorem Ledger.untouched (ledger : Ledger log sender) (accepted : next.accepted = sender.accepted)
    (phase : next.phase = sender.phase) (queue : next.queue = sender.queue) : Ledger log next :=
  ledger.discard rfl rfl (fun _ known => known) accepted phase (queue ▸ List.Sublist.refl _)
    (fun _ member => .inl (queue ▸ member))

theorem Ledger.enqueue (ledger : Ledger log sender) (frame : FecFrame) :
    Ledger (log ++ (sender.enqueue frame).2) (sender.enqueue frame).1 := by
  let expired := sender.queue.filter (fun queued => queued.frame.expired frame.enqueuedAt)
  let kept := sender.queue.filter (fun queued => !queued.frame.expired frame.enqueuedAt)
  let expiries := expired.map (fun queued => SenderLog.dropped queued.number)
  have silent : accepts (log ++ expiries) = accepts log ∧ wholes (log ++ expiries) = wholes log := by
    simp [expiries, accepts, wholes, List.filterMap_map, Function.comp_def, acceptedFrame, sentFrame]
  have gone (queued : QueuedFrame) (member : queued ∈ sender.queue) :
      queued ∈ kept ∨ queued.number ∈ drops (log ++ expiries) := by
    cases late : queued.frame.expired frame.enqueuedAt with
    | false => exact .inl (List.mem_filter.mpr ⟨member, by simp [late]⟩)
    | true =>
      have lost : queued ∈ expired := List.mem_filter.mpr ⟨member, late⟩
      refine .inr ?_
      simp only [drops, List.mem_filterMap, List.mem_append]
      exact ⟨_, .inr (List.mem_map_of_mem lost), rfl⟩
  have latched (needsIdr : Bool) :
      Ledger (log ++ expiries) { sender with queue := kept, needsIdr := needsIdr } :=
    ledger.discard silent.1 silent.2 (fun _ known => by simp [known]) rfl rfl
      List.filter_sublist gone
  cases active : sender.isActive with
  | false => simpa [FecSender.enqueue, active] using ledger
  | true =>
    rw [FecSender.enqueue, if_neg (by simp [active])]
    dsimp only
    cases isKey : frame.isKey with
    | true =>
      rw [if_pos rfl, ← List.append_assoc]
      exact Ledger.accept (latched true) frame isKey rfl rfl rfl
    | false =>
      rw [if_neg Bool.false_ne_true]
      split_ifs with full
      · exact latched true
      · rw [← List.append_assoc]
        exact Ledger.accept (latched true) frame isKey rfl rfl rfl

theorem Ledger.takeFrame (ledger : Ledger log sender) (draining : sender.phase = .draining)
    (now : Nat) :
    Ledger (log ++ (sender.takeFrame now).2) (sender.takeFrame now).1 := by
  have dropHead {queued : QueuedFrame} {rest : List QueuedFrame}
      (queue : sender.queue = queued :: rest) {next : FecSender}
      (accepted : next.accepted = sender.accepted) (phase : next.phase = sender.phase)
      (left : next.queue = rest) : Ledger (log ++ [SenderLog.dropped queued.number]) next := by
    apply ledger.discard _ _ _ accepted phase
    · rw [left, queue]
      exact List.sublist_cons_self queued rest
    · intro other member
      rw [queue, List.mem_cons] at member
      rcases member with rfl | member
      · exact .inr (by simp [drops, droppedFrame])
      · exact .inl (left ▸ member)
    · simp [accepts, acceptedFrame]
    · simp [wholes, sentFrame]
    · exact fun _ known => by simp [known]
  rw [FecSender.takeFrame]
  cases queue : sender.queue with
  | nil =>
    simp only [List.append_nil]
    exact ledger.rest (by simp [draining]) (by simp [draining]) rfl queue.symm (by simp)
  | cons queued rest =>
    simp only
    split_ifs with late
    · exact dropHead queue rfl rfl rfl
    · cases cut : chunksOf sender.wireVersion sender.nextFrameId queued.frame with
      | error _ => exact dropHead queue rfl rfl rfl
      | ok chunks =>
        simp only [List.append_nil]
        exact ledger.take draining queue (chunksOf_ne_nil cut) rfl rfl rfl

/-- A chunk is skipped, ends the task or goes out. -/
theorem sendChunk_cases (sender : FecSender) (current : SendingFrame) (chunk : Payload)
    (rest : List Payload) (now : Nat) (delivered : Bool) :
    (sender.passes current chunk now delivered = false ∧
      ((∃ next : FecSender, sender.sendChunk current chunk rest now delivered =
            (next, if current.cut then [] else [.dropped current.number]) ∧
          next.accepted = sender.accepted ∧ next.queue = sender.queue ∧
          next.phase = .sending { current with chunks := rest, cut := true }) ∨
        ∃ next : FecSender, ∃ exit,
          sender.sendChunk current chunk rest now delivered = (next.stop exit, []) ∧
          next.accepted = sender.accepted ∧ next.queue = sender.queue ∧
          next.phase = sender.phase)) ∨
    (sender.passes current chunk now delivered = true ∧
      ∃ next : FecSender, ∃ repairs bytes, sender.sendChunk current chunk rest now delivered =
          (next, [SenderLog.wire bytes,
              .chunkSent current.number current.frameId current.frame.isKey] ++
            if rest.isEmpty && !current.cut then
              [SenderLog.sent current.number current.frameId current.frame.isKey]
            else []) ∧
        next.accepted = sender.accepted ∧ next.queue = sender.queue ∧
        next.phase = .sending { current with chunks := rest, repairs := repairs }) := by
  rw [sendChunk, passes]
  cases late : current.frame.expired now with
  | true => exact .inl ⟨rfl, .inl ⟨_, rfl, rfl, rfl, rfl⟩⟩
  | false =>
    cases other : sender.superseded with
    | true => exact .inl ⟨rfl, .inr ⟨_, _, rfl, rfl, rfl, rfl⟩⟩
    | false =>
      rw [if_neg Bool.false_ne_true, if_neg Bool.false_ne_true]
      -- The encoder passes the source symbol through.
      have source : (sender.encoder.pushSource sender.nextSeq chunk).2.source =
          .source sender.nextSeq chunk := rfl
      dsimp only
      rw [source]
      cases encodeSymbol sender.wireVersion sender.epoch (.source sender.nextSeq chunk) with
      | error _ => exact .inl ⟨by simp [Except.isOk, Except.toBool], .inr ⟨_, _, rfl, rfl, rfl, rfl⟩⟩
      | ok bytes =>
        cases delivered with
        | false => exact .inl ⟨rfl, .inr ⟨_, _, rfl, rfl, rfl, rfl⟩⟩
        | true => exact .inr ⟨rfl, _, _, bytes, rfl, rfl, rfl, rfl⟩

theorem Ledger.sendChunk (ledger : Ledger log sender) {current : SendingFrame} {chunk : Payload}
    {rest : List Payload} (sending : sender.phase = .sending current) (now : Nat)
    (delivered : Bool) :
    Ledger (log ++ (sender.sendChunk current chunk rest now delivered).2)
      (sender.sendChunk current chunk rest now delivered).1 := by
  have sound := ledger.current current sending
  obtain ⟨-, ⟨next, same, accepted, queue, phase⟩ | ⟨next, exit, same, accepted, queue, phase⟩⟩ |
      ⟨-, next, repairs, bytes, same, accepted, queue, phase⟩ :=
    sender.sendChunk_cases current chunk rest now delivered
  · -- The first skipped chunk puts the frame on record as dropped.
    rw [same]
    cases cut : current.cut with
    | true =>
      rw [if_pos rfl, List.append_nil]
      have lost := sound.cutDropped cut
      exact ledger.advance sending accepted queue phase rfl rfl rfl (fun _ known => known)
        (fun _ known => .inl known) (fun _ known => known) (fun _ => lost) (fun _ => .inl lost)
    | false =>
      rw [if_neg Bool.false_ne_true]
      have lost : current.number ∈ drops (log ++ [SenderLog.dropped current.number]) := by
        simp [drops, droppedFrame]
      apply ledger.advance sending accepted queue phase rfl rfl
      · simp [accepts, acceptedFrame]
      · exact fun _ known => by simp [known]
      · exact fun whole known => .inl (by simpa [wholes, sentFrame] using known)
      · exact fun whole known => by simp [known]
      · exact fun _ => lost
      · exact fun _ => .inl lost
  · rw [same, List.append_nil]
    exact Ledger.stop (ledger.untouched accepted phase queue) exit
  · rw [same]
    have done : wholes (if rest.isEmpty && !current.cut then
          [.sent current.number current.frameId current.frame.isKey]
        else []) = if rest.isEmpty && !current.cut then
          [⟨current.number, current.frameId, current.frame.isKey⟩]
        else [] := by
      split <;> rfl
    have silent : accepts (if rest.isEmpty && !current.cut then
          [.sent current.number current.frameId current.frame.isKey]
        else []) = [] := by
      split <;> rfl
    apply ledger.advance sending accepted queue phase rfl rfl
    · simp only [accepts_append, silent]
      simp [accepts, acceptedFrame]
    · exact fun _ known => by simp [known]
    · intro whole known
      simp only [wholes_append, done, List.mem_append] at known
      rcases known with known | known | known
      · exact .inl known
      · simp [wholes, sentFrame] at known
      · split at known
        · rw [List.mem_singleton.mp known]
          exact .inr ⟨rfl, rfl⟩
        · simp at known
    · exact fun whole known => by simp [known]
    · exact fun cut => by simp [sound.cutDropped cut]
    · intro none
      cases cut : current.cut with
      | true => exact .inl (by simp [sound.cutDropped cut])
      | false =>
        have none : rest = [] := none
        exact .inr ⟨⟨current.number, current.frameId, current.frame.isKey⟩,
          by simp [none, wholes, sentFrame], rfl, rfl⟩

theorem Ledger.sendRepair (ledger : Ledger log sender) {current : SendingFrame} {repair : Symbol}
    {rest : List Symbol} (sending : sender.phase = .sending current) (now : Nat)
    (delivered : Bool) :
    Ledger (log ++ (sender.sendRepair current repair rest now delivered).2)
      (sender.sendRepair current repair rest now delivered).1 := by
  have sound := ledger.current current sending
  have goOn {later : List SenderLog} {next : FecSender} {repairs : List Symbol}
      (accepts_eq : accepts later = accepts log) (drops_eq : drops later = drops log)
      (wholes_eq : wholes later = wholes log) (accepted : next.accepted = sender.accepted)
      (queue : next.queue = sender.queue)
      (phase : next.phase = .sending { current with repairs := repairs }) : Ledger later next := by
    apply ledger.advance sending accepted queue phase rfl rfl accepts_eq
    · simp [drops_eq]
    · exact fun whole known => .inl (wholes_eq ▸ known)
    · simp [wholes_eq]
    · exact drops_eq ▸ sound.cutDropped
    · rw [drops_eq, wholes_eq]
      exact sound.finished
  rw [FecSender.sendRepair]
  cases current.frame.expired now with
  | true => exact goOn (by simp) (by simp) (by simp) rfl rfl rfl
  | false =>
    cases sender.superseded with
    | true => simpa using ledger.stop .superseded
    | false =>
      rw [if_neg Bool.false_ne_true, if_neg Bool.false_ne_true]
      cases encodeSymbol sender.wireVersion sender.epoch repair with
      | error _ => simpa using ledger.stop .encodeFailed
      | ok bytes =>
        cases delivered with
        | false => simpa using ledger.stop .channelClosed
        | true =>
          exact goOn (by simp [accepts, acceptedFrame]) (by simp [drops, droppedFrame])
            (by simp [wholes, sentFrame]) rfl rfl rfl

theorem Ledger.task (ledger : Ledger log sender) (now : Nat) (delivered : Bool) :
    Ledger (log ++ (sender.task now delivered).2) (sender.task now delivered).1 := by
  rw [FecSender.task]
  cases phase : sender.phase with
  | waiting =>
    dsimp only
    split_ifs
    · rw [List.append_nil]
      exact ledger.rest (by simp [phase]) (by simp [phase]) rfl rfl (by simp)
    · simpa using ledger
  | draining => exact ledger.takeFrame phase now
  | exited => simpa using ledger
  | sending current =>
    dsimp only
    split
    · exact ledger.sendRepair phase now delivered
    · exact ledger.sendChunk phase now delivered
    · rename_i _ none
      rw [List.append_nil]
      refine ledger.rest (by simp [phase]) (fun other same => ?_) rfl rfl (by simp)
      obtain rfl := TaskPhase.sending.inj (phase.symm.trans same)
      exact none

theorem Ledger.receive (ledger : Ledger log sender) : Ledger log sender.receive := by
  rw [FecSender.receive]
  split
  · exact ledger.untouched rfl rfl rfl
  · exact ledger.untouched rfl rfl rfl
  · exact ledger.untouched rfl rfl rfl
  · split_ifs
    · exact ledger
    · exact ledger.stop .superseded
    · exact ledger.stop .ackChannelClosed
  all_goals exact ledger

theorem Ledger.step (log : List SenderLog) (sender : FecSender) (input : SenderStep)
    (ledger : Ledger log sender) :
    Ledger (log ++ (sender.step input).2) (sender.step input).1 := by
  cases input with
  | commitEnqueue index =>
    rw [FecSender.step, FecSender.commitEnqueue]
    split
    · simpa using ledger
    · apply Ledger.enqueue
      exact ledger.untouched rfl rfl rfl
  | task now delivered => exact ledger.task now delivered
  | receive => simpa [FecSender.step] using ledger.receive
  | beginEnqueue data isKey timestampUs now =>
    simp only [FecSender.step, FecSender.beginEnqueue, List.append_nil]
    split_ifs
    · exact ledger
    · exact ledger
    · exact ledger.untouched rfl rfl rfl
    · exact ledger.untouched rfl rfl rfl
  | forwardControl msg =>
    simp only [FecSender.step, FecSender.forwardControl, List.append_nil]
    split
    · exact ledger
    · split_ifs
      · exact ledger
      · exact ledger.untouched rfl rfl rfl
  | requestIdr | consumeNeedsIdr | bumpGeneration | dropHandle =>
    rw [FecSender.step, List.append_nil]
    exact ledger.untouched rfl rfl rfl

/-- A key frame from which on no group lost a frame leads to a newer key frame that went out. -/
theorem sent_key {queue : List QueuedFrame} {current : SendingFrame}
    (sound : current.Sound log queue) (delta : current.frame.isKey = false)
    (unbroken : GroupWhole log current.number) {key : Nat} (known : key ∈ keys log)
    (before : key < current.number) :
    ∃ whole ∈ wholes log, whole.isKey ∧ key ≤ whole.number := by
  -- Each step goes to a newer key frame that is still older than the delta.
  induction distance : current.number - key using Nat.strong_induction_on generalizing key with
  | _ distance ih =>
    have go {newer : Nat} (known : newer ∈ keys log) (above : key < newer)
        (inside : newer < current.number) :
        ∃ whole ∈ wholes log, whole.isKey ∧ key ≤ whole.number := by
      obtain ⟨whole, member, isKey, least⟩ := ih _ (by omega) known inside rfl
      exact ⟨whole, member, isKey, by omega⟩
    rcases sound.chain delta key known before with
      (dropped | ⟨whole, member, same, isKey⟩) | ⟨newer, known, above, inside⟩
    · obtain ⟨newer, known, above, inside⟩ := unbroken key dropped before
      exact go known above inside
    · exact ⟨whole, member, isKey, by omega⟩
    · exact go known above inside

theorem chainSafe_iff {queue : List QueuedFrame} {current : SendingFrame}
    (sound : current.Sound log queue)
    (sentAccepted : ∀ whole ∈ wholes log, (whole.number, whole.isKey) ∈ accepts log)
    (bytes : List UInt8) :
    ChainSafe (log ++ [SenderLog.wire bytes])
        (.chunkSent current.number current.frameId current.frame.isKey) ↔
      (current.frame.isKey = false → Follows log current.frameId →
        GroupWhole log current.number) := by
  cases isKey : current.frame.isKey with
  | true => simp [ChainSafe]
  | false =>
    have drops_eq : drops (log ++ [SenderLog.wire bytes]) = drops log := by
      simp [drops, droppedFrame]
    have wholes_eq : wholes (log ++ [SenderLog.wire bytes]) = wholes log := by
      simp [wholes, sentFrame]
    simp only [ChainSafe, Follows, drops_eq, wholes_eq, true_implies]
    constructor
    · intro safe follows lost dropped before
      obtain ⟨whole, member, key, above⟩ := safe lost dropped before follows
      refine ⟨whole.number, ?_, above, ?_⟩
      · rw [mem_keys, ← key]
        exact sentAccepted whole member
      · rcases sound.sentBefore whole member with older | ⟨-, kind⟩
        · exact older
        · simp [key, isKey] at kind
    · intro unbroken lost dropped before follows
      obtain ⟨key, known, above, inside⟩ := unbroken follows lost dropped before
      obtain ⟨whole, member, kind, least⟩ := sent_key sound isKey (unbroken follows) known inside
      exact ⟨whole, member, kind, by omega⟩

/-- Only a chunk can break the chain. -/
theorem emissionsAfter_of_no_chunk {more : List SenderLog}
    (none : ∀ number frameId isKey, .chunkSent number frameId isKey ∉ more)
    (log : List SenderLog) : Runs.EmissionsAfter ChainSafe log more := by
  apply Runs.emissionsAfter_of_forall
  intro seen event member
  cases event with
  | chunkSent number frameId isKey => exact absurd member (none number frameId isKey)
  | accepted | dropped | wire | sent => trivial

theorem enqueue_no_chunk (sender : FecSender) (frame : FecFrame) (number : Nat)
    (frameId : UInt32) (isKey : Bool) :
    .chunkSent number frameId isKey ∉ (sender.enqueue frame).2 := by
  rw [enqueue]
  dsimp only
  split_ifs <;> simp

theorem takeFrame_no_chunk (sender : FecSender) (now number : Nat) (frameId : UInt32)
    (isKey : Bool) : .chunkSent number frameId isKey ∉ (sender.takeFrame now).2 := by
  rw [takeFrame]
  split
  · simp
  · split_ifs
    · simp
    · dsimp only
      split <;> simp

theorem sendRepair_no_chunk (sender : FecSender) (current : SendingFrame) (repair : Symbol)
    (rest : List Symbol) (now : Nat) (delivered : Bool) (number : Nat) (frameId : UInt32)
    (isKey : Bool) :
    .chunkSent number frameId isKey ∉
      (sender.sendRepair current repair rest now delivered).2 := by
  rw [sendRepair]
  split_ifs <;> first | simp | split <;> simp

theorem task_chainSafe_iff (ledger : Ledger log sender) (now : Nat) (delivered : Bool) :
    Runs.EmissionsAfter ChainSafe log (sender.task now delivered).2 ↔
      Unbroken log sender (.task now delivered) := by
  rw [task, Unbroken, chunkDue]
  cases phase : sender.phase with
  | waiting =>
    dsimp only
    split_ifs <;> simp [Runs.EmissionsAfter]
  | draining =>
    simpa using emissionsAfter_of_no_chunk (sender.takeFrame_no_chunk now) log
  | exited => simp [Runs.EmissionsAfter]
  | sending current =>
    have sound := ledger.current current phase
    dsimp only
    cases repairs : current.repairs with
    | cons repair rest =>
      simpa using
        emissionsAfter_of_no_chunk (sender.sendRepair_no_chunk current repair rest now delivered) log
    | nil =>
      cases chunks : current.chunks with
      | nil => simp [Runs.EmissionsAfter]
      | cons chunk rest =>
        dsimp only
        obtain ⟨held, ⟨next, same, -⟩ | ⟨next, exit, same, -⟩⟩ |
            ⟨passes, next, later, bytes, same, -⟩ :=
          sender.sendChunk_cases current chunk rest now delivered
        · rw [same, held]
          have safe : Runs.EmissionsAfter ChainSafe log
              (if current.cut then [] else [.dropped current.number]) :=
            emissionsAfter_of_no_chunk (by split <;> simp) log
          simpa using safe
        · rw [same, held]
          simp [Runs.EmissionsAfter]
        · rw [same, passes]
          have done : Runs.EmissionsAfter ChainSafe (log ++ [SenderLog.wire bytes,
                .chunkSent current.number current.frameId current.frame.isKey])
              (if rest.isEmpty && !current.cut then
                [.sent current.number current.frameId current.frame.isKey]
              else []) :=
            emissionsAfter_of_no_chunk (by split <;> simp) _
          have chunk := chainSafe_iff sound ledger.sentAccepted bytes
          simp only [Runs.emissionsAfter_append, done, and_true, Runs.EmissionsAfter, chunk]
          simp [ChainSafe]

theorem step_chainSafe_iff (log : List SenderLog) (sender : FecSender) (input : SenderStep)
    (ledger : Ledger log sender) :
    Runs.EmissionsAfter ChainSafe log (sender.step input).2 ↔ Unbroken log sender input := by
  cases input with
  | task now delivered => exact task_chainSafe_iff ledger now delivered
  | commitEnqueue index =>
    refine iff_of_true ?_ trivial
    rw [step, commitEnqueue]
    split
    · trivial
    · exact emissionsAfter_of_no_chunk (enqueue_no_chunk _ _) log
  | beginEnqueue | forwardControl | requestIdr | consumeNeedsIdr | bumpGeneration | dropHandle
  | receive => exact iff_of_true trivial trivial

def subscribeSteps : List SenderStep := [.forwardControl (.v2 (.subscribe ⟨7, by decide⟩)), .receive]

-- A key frame goes out whole. Of two deltas that wait behind it the older one has expired when
-- the task comes to them; the younger one takes the next id.
def expiredDeltaSteps : List SenderStep :=
  subscribeSteps ++
  [SenderStep.beginEnqueue [1] true 0 0, .commitEnqueue 0,
    .task 0 true, .task 0 true, .task 0 true, .task 0 true, .task 0 true,
    .beginEnqueue [2] false 10 10000000, .commitEnqueue 0,
    .beginEnqueue [3] false 60 60000000, .commitEnqueue 0,
    .task 120000000 true, .task 120000000 true, .task 120000000 true, .task 120000000 true]

def expiredDeltaLog : List SenderLog :=
  (Runs.run step (spawn 1 1 false .v2 ⟨7, by decide⟩) expiredDeltaSteps).2

end FecSender

end BetterParsec
