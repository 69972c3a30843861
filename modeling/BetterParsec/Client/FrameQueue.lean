import BetterParsec.Video.Receiver

set_option autoImplicit false
set_option linter.all false

/-!
# Frame queue

The bounded queue of frames and discontinuities between the receive thread and
the decoder. Every operation is one critical section of the queue's mutex, so
the interleavings of its users are the sequences of these operations.
-/

namespace BetterParsec

inductive VideoEvent where
  | frame (unit : DecodeUnit)
  | discontinuity (generation : UInt64) (epoch : UInt32) (reason : DiscontinuityReason)
  deriving DecidableEq

structure QueueState where
  events : List VideoEvent
  closed : Bool
  overflowed : Bool
  nextGeneration : UInt64
  recovery : Option (UInt64 × UInt32)

structure FramePush where
  overflowed : Bool
  generation : Option UInt64

structure FrameQueue where
  cap : Nat
  state : QueueState

namespace QueueState

-- The number 0 is left out when the counter wraps.
def freshGeneration (st : QueueState) : UInt64 := max (st.nextGeneration + 1) 1

def openRecoveryLocked (st : QueueState) (epoch : UInt32) : QueueState :=
  { st with
    nextGeneration := st.freshGeneration
    recovery := some (st.freshGeneration, epoch) }

def enqueue (st : QueueState) (event : VideoEvent) : QueueState :=
  { st with events := st.events ++ [event] }

def clear (st : QueueState) : QueueState := { st with events := [], overflowed := true }

-- A recovery opens together with the event that announces it.
def enqueueReset (st : QueueState) (epoch : UInt32) (reason : DiscontinuityReason) : QueueState :=
  (st.openRecoveryLocked epoch).enqueue (.discontinuity st.freshGeneration epoch reason)

end QueueState

namespace FrameQueue

def new (cap : Nat) : FrameQueue :=
  { cap := max cap 1
    state :=
      { events := []
        closed := false
        overflowed := false
        nextGeneration := 0
        recovery := none } }

def full (queue : FrameQueue) : Bool := queue.state.events.length ≥ queue.cap

def pushFrameReportingOverflow (queue : FrameQueue) (unit : DecodeUnit) :
    FrameQueue × Option FramePush :=
  if queue.state.closed then (queue, none)
  else if queue.full then
    ({ queue with
        state := (queue.state.clear.enqueueReset unit.epoch .queueOverflow).enqueue (.frame unit) },
      some ⟨true, some queue.state.freshGeneration⟩)
  else ({ queue with state := queue.state.enqueue (.frame unit) }, some ⟨false, none⟩)

def pushFrame (queue : FrameQueue) (unit : DecodeUnit) : FrameQueue × Bool :=
  ((queue.pushFrameReportingOverflow unit).1, (queue.pushFrameReportingOverflow unit).2.isSome)

def pushDiscontinuity (queue : FrameQueue) (epoch : UInt32) (reason : DiscontinuityReason) :
    FrameQueue × Option UInt64 :=
  if queue.state.closed then (queue, none)
  else
    let roomy := if queue.full then queue.state.clear else queue.state
    ({ queue with state := roomy.enqueueReset epoch reason }, some queue.state.freshGeneration)

-- `try_event`, and what one round of `wait_event` does before it sleeps or returns.
def tryEvent (queue : FrameQueue) : FrameQueue × Option VideoEvent :=
  match queue.state.events with
  | [] => (queue, none)
  | event :: rest => ({ queue with state := { queue.state with events := rest } }, some event)

def close (queue : FrameQueue) : FrameQueue :=
  { queue with state := { queue.state with closed := true } }

def takeOverflowed (queue : FrameQueue) : FrameQueue × Bool :=
  ({ queue with state := { queue.state with overflowed := false } }, queue.state.overflowed)

def setRecovery (queue : FrameQueue) (recovery : Option (UInt64 × UInt32)) : FrameQueue :=
  { queue with state := { queue.state with recovery := recovery } }

def acknowledgeRecovery (queue : FrameQueue) (generation : UInt64) (epoch : UInt32) :
    FrameQueue × Bool :=
  if queue.state.recovery = some (generation, epoch) then (queue.setRecovery none, true)
  else (queue, false)

def clearRecovery (queue : FrameQueue) : FrameQueue := queue.setRecovery none

end FrameQueue

-- The operations of all users. `wait_pop` and `try_pop` repeat `waitEvent` and `tryEvent`.
inductive QueueOp where
  | pushFrame (unit : DecodeUnit)
  | pushFrameReportingOverflow (unit : DecodeUnit)
  | pushDiscontinuity (epoch : UInt32) (reason : DiscontinuityReason)
  | tryEvent
  | waitEvent
  | close
  | takeOverflowed
  | acknowledgeRecovery (generation : UInt64) (epoch : UInt32)
  | clearRecovery

-- What happened to the events of the queue and to its recovery.
inductive QueueLog where
  | pushed (event : VideoEvent)
  | synthesized (event : VideoEvent)
  | discarded (event : VideoEvent)
  | popped (event : VideoEvent)
  | acknowledged (generation : UInt64) (epoch : UInt32)
  | cleared
  deriving DecidableEq

namespace FrameQueue

def discards (queue : FrameQueue) : List QueueLog :=
  if queue.full then queue.state.events.map .discarded else []

-- The log of a frame push that was not refused.
def frameLog (queue : FrameQueue) (unit : DecodeUnit) : List QueueLog :=
  queue.discards ++
    (if queue.full then
      [QueueLog.synthesized (.discontinuity queue.state.freshGeneration unit.epoch .queueOverflow)]
    else []) ++
    [QueueLog.pushed (.frame unit)]

def operate (queue : FrameQueue) : QueueOp → FrameQueue × List QueueLog
  | .pushFrame unit =>
      ((queue.pushFrame unit).1, if queue.state.closed then [] else queue.frameLog unit)
  | .pushFrameReportingOverflow unit =>
      ((queue.pushFrameReportingOverflow unit).1,
        if queue.state.closed then [] else queue.frameLog unit)
  | .pushDiscontinuity epoch reason =>
      ((queue.pushDiscontinuity epoch reason).1,
        if queue.state.closed then []
        else queue.discards ++
          [QueueLog.pushed (.discontinuity queue.state.freshGeneration epoch reason)])
  | .tryEvent | .waitEvent => (queue.tryEvent.1, queue.tryEvent.2.toList.map .popped)
  | .close => (queue.close, [])
  | .takeOverflowed => (queue.takeOverflowed.1, [])
  | .acknowledgeRecovery generation epoch =>
      ((queue.acknowledgeRecovery generation epoch).1, [.acknowledged generation epoch])
  | .clearRecovery => (queue.clearRecovery, [.cleared])

end FrameQueue

namespace QueueLog

def entered : QueueLog → Option VideoEvent
  | .pushed event | .synthesized event => some event
  | .discarded _ | .popped _ | .acknowledged _ _ | .cleared => none

def left : QueueLog → Option VideoEvent
  | .discarded event | .popped event => some event
  | .pushed _ | .synthesized _ | .acknowledged _ _ | .cleared => none

def taken : QueueLog → Option VideoEvent
  | .popped event => some event
  | .pushed _ | .synthesized _ | .discarded _ | .acknowledged _ _ | .cleared => none

-- An event was lost and the consumer has not seen a discontinuity since.
def trackLoss (lost : Bool) : QueueLog → Bool
  | .discarded _ => true
  | .popped (.discontinuity _ _ _) => false
  | .popped (.frame _) | .pushed _ | .synthesized _ | .acknowledged _ _ | .cleared => lost

def lost (log : List QueueLog) : Bool := log.foldl trackLoss false

-- No frame is popped behind a loss that was not announced.
def Announced (before : List QueueLog) (entry : QueueLog) : Prop :=
  ∀ unit, entry = .popped (.frame unit) → lost before = false

def reset : QueueLog → Option (UInt64 × UInt32)
  | .pushed (.discontinuity generation epoch _) => some (generation, epoch)
  | .synthesized (.discontinuity generation epoch _) => some (generation, epoch)
  | .pushed (.frame _) | .synthesized (.frame _) | .discarded _ | .popped _ | .acknowledged _ _
  | .cleared => none

def closes (pair : UInt64 × UInt32) : QueueLog → Bool
  | .acknowledged generation epoch => pair = (generation, epoch)
  | .cleared => true
  | .pushed _ | .synthesized _ | .discarded _ | .popped _ => false

-- The recovery that is open according to the log.
def trackRecovery (recovery : Option (UInt64 × UInt32)) (entry : QueueLog) :
    Option (UInt64 × UInt32) :=
  match entry.reset with
  | some pair => some pair
  | none => recovery.filter (fun pair => !entry.closes pair)

def openRecovery (log : List QueueLog) : Option (UInt64 × UInt32) := log.foldl trackRecovery none

theorem popped_sublist_left (log : List QueueLog) :
    (log.filterMap taken).Sublist (log.filterMap left) := by
  induction log with
  | nil => exact .slnil
  | cons entry rest ih =>
    cases entry with
    | popped event => exact ih.cons_cons event
    | discarded event => exact ih.cons event
    | pushed | synthesized | acknowledged | cleared => exact ih

@[simp] theorem lost_concat (log : List QueueLog) (entry : QueueLog) :
    lost (log ++ [entry]) = trackLoss (lost log) entry := by
  simp [lost]

@[simp] theorem openRecovery_concat (log : List QueueLog) (entry : QueueLog) :
    openRecovery (log ++ [entry]) = trackRecovery (openRecovery log) entry := by
  simp [openRecovery]

theorem trackRecovery_quiet {entry : QueueLog} (recovery : Option (UInt64 × UInt32))
    (opens : entry.reset = none) (closes : ∀ pair, entry.closes pair = false) :
    trackRecovery recovery entry = recovery := by
  cases recovery <;> simp only [trackRecovery, opens, Option.filter_none, Option.filter_some,
    closes, Bool.not_false, if_true]

theorem openRecovery_append_discarded (log : List QueueLog) (events : List VideoEvent) :
    openRecovery (log ++ events.map .discarded) = openRecovery log := by
  induction events generalizing log with
  | nil => simp
  | cons event rest ih =>
    have later := ih (log ++ [QueueLog.discarded event])
    rw [List.append_assoc] at later
    rw [List.map_cons, ← List.singleton_append, later, openRecovery_concat,
      trackRecovery_quiet _ rfl (fun _ => rfl)]

theorem foldl_trackRecovery_none (log : List QueueLog) (silent : ∀ entry ∈ log, entry.reset = none) :
    log.foldl trackRecovery none = none := by
  induction log with
  | nil => rfl
  | cons entry rest ih =>
    rw [List.foldl_cons, trackRecovery, silent entry List.mem_cons_self]
    exact ih (fun other member => silent other (List.mem_cons_of_mem _ member))

/-- Behind the last reset, the recovery is open unless it was closed. -/
theorem foldl_trackRecovery (after : List QueueLog) (pair : UInt64 × UInt32)
    (last : ∀ entry ∈ after, entry.reset = none) :
    after.foldl trackRecovery (some pair) =
      if after.any (closes pair) then none else some pair := by
  induction after with
  | nil => rfl
  | cons entry rest ih =>
    have later (other : QueueLog) (member : other ∈ rest) : other.reset = none :=
      last other (List.mem_cons_of_mem _ member)
    rw [List.foldl_cons, trackRecovery, last entry List.mem_cons_self, List.any_cons]
    cases closed : entry.closes pair with
    | true =>
      simp only [Option.filter_some, closed]
      exact foldl_trackRecovery_none rest later
    | false =>
      simp only [Option.filter_some, closed]
      exact ih later

end QueueLog

namespace QueueState

-- What entered and has not left is still queued, in order, and the recovery is the logged one.
structure Balanced (log : List QueueLog) (st : QueueState) : Prop where
  events : log.filterMap QueueLog.entered = log.filterMap QueueLog.left ++ st.events
  recovery : st.recovery = QueueLog.openRecovery log

-- A loss that was not announced yet is announced by the first event in line.
def Fronted (log : List QueueLog) (st : QueueState) : Prop :=
  QueueLog.lost log → ∃ generation epoch reason rest,
    st.events = .discontinuity generation epoch reason :: rest

variable {log : List QueueLog} {st : QueueState}

theorem Balanced.clear (balanced : st.Balanced log) :
    st.clear.Balanced (log ++ st.events.map .discarded) := by
  have entered : (st.events.map QueueLog.discarded).filterMap QueueLog.entered = [] := by
    simp [List.filterMap_map, Function.comp_def, QueueLog.entered]
  have left : (st.events.map QueueLog.discarded).filterMap QueueLog.left = st.events := by
    simp [List.filterMap_map, Function.comp_def, QueueLog.left]
  constructor
  · rw [List.filterMap_append, List.filterMap_append, entered, left, balanced.events]
    simp [QueueState.clear]
  · rw [QueueLog.openRecovery_append_discarded]
    exact balanced.recovery

theorem Balanced.enqueueFrame (balanced : st.Balanced log) (unit : DecodeUnit) :
    (st.enqueue (.frame unit)).Balanced (log ++ [QueueLog.pushed (.frame unit)]) := by
  constructor
  · rw [List.filterMap_append, List.filterMap_append, balanced.events]
    simp [QueueState.enqueue, QueueLog.entered, QueueLog.left]
  · rw [QueueLog.openRecovery_concat, QueueLog.trackRecovery_quiet _ rfl (fun _ => rfl)]
    exact balanced.recovery

theorem Balanced.enqueueReset (balanced : st.Balanced log) (epoch : UInt32)
    (reason : DiscontinuityReason) (entry : QueueLog)
    (enters : entry.entered = some (.discontinuity st.freshGeneration epoch reason)) :
    (st.enqueueReset epoch reason).Balanced (log ++ [entry]) := by
  have stays : entry.left = none := by
    cases entry <;> simp [QueueLog.entered] at enters <;> rfl
  have opens : entry.reset = some (st.freshGeneration, epoch) := by
    cases entry <;> simp [QueueLog.entered] at enters <;> rw [enters] <;> rfl
  constructor
  · rw [List.filterMap_append, List.filterMap_append, balanced.events]
    simp [QueueState.enqueueReset, QueueState.enqueue, QueueState.openRecoveryLocked, enters, stays]
  · rw [QueueLog.openRecovery_concat, QueueLog.trackRecovery, opens]
    rfl

theorem Fronted.enqueue (fronted : st.Fronted log) (event : VideoEvent) (entry : QueueLog)
    (quiet : QueueLog.trackLoss (QueueLog.lost log) entry = QueueLog.lost log) :
    (st.enqueue event).Fronted (log ++ [entry]) := by
  intro lost
  rw [QueueLog.lost_concat, quiet] at lost
  obtain ⟨generation, epoch, reason, rest, front⟩ := fronted lost
  exact ⟨generation, epoch, reason, rest ++ [event], by simp [QueueState.enqueue, front]⟩

end QueueState

namespace FrameQueue

structure Logged (cap : Nat) (log : List QueueLog) (queue : FrameQueue) : Prop where
  limit : queue.cap = max cap 1
  balanced : queue.state.Balanced log
  fronted : queue.state.Fronted log
  short : queue.state.events.length ≤ max cap 2
  announced : Runs.Emissions QueueLog.Announced log

theorem announced_of_no_frame {before : List QueueLog} {entry : QueueLog}
    (other : ∀ unit, entry ≠ .popped (.frame unit)) : QueueLog.Announced before entry := by
  intro unit popped
  exact absurd popped (other unit)

variable {cap : Nat} {log : List QueueLog} {queue : FrameQueue}

theorem Logged.pushFrame (logged : queue.Logged cap log) (unit : DecodeUnit)
    (accepting : queue.state.closed = false) :
    (queue.pushFrameReportingOverflow unit).1.Logged cap (log ++ queue.frameLog unit) := by
  have limit := logged.limit
  have announced : Runs.Emissions QueueLog.Announced (log ++ queue.frameLog unit) := by
    apply logged.announced.append
    intro before entry member
    apply announced_of_no_frame
    rintro other rfl
    simp only [frameLog, discards] at member
    split_ifs at member <;> simp at member
  cases full : queue.full with
  | true =>
    simp only [frameLog, discards, full, if_true, ← List.append_assoc] at announced ⊢
    simp only [pushFrameReportingOverflow, accepting, full, if_true, Bool.false_eq_true, if_false]
    have cleared := logged.balanced.clear.enqueueReset unit.epoch .queueOverflow
      (.synthesized (.discontinuity queue.state.freshGeneration unit.epoch .queueOverflow)) rfl
    exact ⟨limit, cleared.enqueueFrame unit, fun _ => ⟨_, _, _, _, rfl⟩, le_max_right cap 2,
      announced⟩
  | false =>
    simp only [frameLog, discards, full, Bool.false_eq_true, if_false, List.nil_append]
      at announced ⊢
    simp only [pushFrameReportingOverflow, accepting, full, Bool.false_eq_true, if_false]
    refine ⟨limit, logged.balanced.enqueueFrame unit, logged.fronted.enqueue _ _ rfl, ?_, announced⟩
    have room : queue.state.events.length < queue.cap := by simpa [FrameQueue.full] using full
    simp only [QueueState.enqueue, List.length_append, List.length_singleton]
    omega

theorem Logged.pushDiscontinuity (logged : queue.Logged cap log) (epoch : UInt32)
    (reason : DiscontinuityReason) (accepting : queue.state.closed = false) :
    (queue.pushDiscontinuity epoch reason).1.Logged cap (log ++ (queue.discards ++
      [QueueLog.pushed (.discontinuity queue.state.freshGeneration epoch reason)])) := by
  have limit := logged.limit
  have announced : Runs.Emissions QueueLog.Announced (log ++ (queue.discards ++
      [QueueLog.pushed (.discontinuity queue.state.freshGeneration epoch reason)])) := by
    apply logged.announced.append
    intro before entry member
    apply announced_of_no_frame
    rintro other rfl
    simp only [discards] at member
    split_ifs at member <;> simp at member
  cases full : queue.full with
  | true =>
    simp only [discards, full, if_true, ← List.append_assoc] at announced ⊢
    simp only [FrameQueue.pushDiscontinuity, accepting, full, if_true, Bool.false_eq_true, if_false]
    exact ⟨limit, logged.balanced.clear.enqueueReset epoch reason _ rfl,
      fun _ => ⟨_, _, _, _, rfl⟩, by simp [QueueState.enqueueReset, QueueState.enqueue,
        QueueState.openRecoveryLocked, QueueState.clear], announced⟩
  | false =>
    simp only [discards, full, Bool.false_eq_true, if_false, List.nil_append] at announced ⊢
    simp only [FrameQueue.pushDiscontinuity, accepting, full, Bool.false_eq_true, if_false]
    have fronted : (queue.state.openRecoveryLocked epoch).Fronted log := logged.fronted
    refine ⟨limit, logged.balanced.enqueueReset epoch reason _ rfl, fronted.enqueue _ _ rfl, ?_,
      announced⟩
    have room : queue.state.events.length < queue.cap := by simpa [FrameQueue.full] using full
    simp only [QueueState.enqueueReset, QueueState.enqueue, QueueState.openRecoveryLocked,
      List.length_append, List.length_singleton]
    omega

theorem Logged.tryEvent (logged : queue.Logged cap log) :
    queue.tryEvent.1.Logged cap (log ++ queue.tryEvent.2.toList.map .popped) := by
  cases events : queue.state.events with
  | nil =>
    simp only [FrameQueue.tryEvent, events, Option.toList_none, List.map_nil, List.append_nil]
    exact logged
  | cons event rest =>
    simp only [FrameQueue.tryEvent, events, Option.toList_some, List.map_cons, List.map_nil]
    have short := logged.short
    have balance := logged.balanced.events
    rw [events] at short balance
    refine ⟨logged.limit, ⟨?_, ?_⟩, ?_, ?_, ?_⟩
    · rw [List.filterMap_append, List.filterMap_append, balance]
      simp [QueueLog.entered, QueueLog.left]
    · rw [QueueLog.openRecovery_concat, QueueLog.trackRecovery_quiet _ rfl (fun _ => rfl)]
      exact logged.balanced.recovery
    · -- A loss still to be announced would have a discontinuity at the front, which is now popped.
      intro lost
      rw [QueueLog.lost_concat] at lost
      cases event with
      | discontinuity => simp [QueueLog.trackLoss] at lost
      | frame unit =>
        obtain ⟨_, _, _, _, front⟩ := logged.fronted lost
        simp [events] at front
    · simp only [List.length_cons] at short
      dsimp only
      omega
    · apply logged.announced.concat
      intro unit popped
      rw [QueueLog.popped.injEq] at popped
      subst popped
      cases lost : QueueLog.lost log with
      | false => rfl
      | true =>
        obtain ⟨_, _, _, _, front⟩ := logged.fronted lost
        simp [events] at front

/-- An operation on the recovery alone. -/
theorem Logged.settle (logged : queue.Logged cap log) (entry : QueueLog)
    (recovery : Option (UInt64 × UInt32))
    (other : entry.entered = none ∧ entry.left = none ∧ entry.reset = none)
    (settled : recovery = queue.state.recovery.filter (fun pair => !entry.closes pair)) :
    (queue.setRecovery recovery).Logged cap (log ++ [entry]) := by
  obtain ⟨enters, leaves, resets⟩ := other
  have quiet : QueueLog.trackLoss (QueueLog.lost log) entry = QueueLog.lost log := by
    cases entry <;> simp [QueueLog.left] at leaves <;> rfl
  refine ⟨logged.limit, ⟨?_, ?_⟩, ?_, logged.short, ?_⟩
  · rw [List.filterMap_append, List.filterMap_append, logged.balanced.events]
    simp [enters, leaves, setRecovery]
  · rw [QueueLog.openRecovery_concat, QueueLog.trackRecovery, resets, ← logged.balanced.recovery]
    exact settled
  · intro lost
    rw [QueueLog.lost_concat, quiet] at lost
    exact logged.fronted lost
  · apply logged.announced.concat
    apply announced_of_no_frame
    rintro unit rfl
    simp [QueueLog.left] at leaves

/-- One operation of any user. -/
theorem Logged.operate (logged : queue.Logged cap log) (op : QueueOp) :
    (queue.operate op).1.Logged cap (log ++ (queue.operate op).2) := by
  have frame (unit : DecodeUnit) : (queue.pushFrameReportingOverflow unit).1.Logged cap
      (log ++ if queue.state.closed then [] else queue.frameLog unit) := by
    cases closed : queue.state.closed with
    | false => exact logged.pushFrame unit closed
    | true => simpa [pushFrameReportingOverflow, closed] using logged
  cases op with
  | pushFrame unit => exact frame unit
  | pushFrameReportingOverflow unit => exact frame unit
  | pushDiscontinuity epoch reason =>
    cases closed : queue.state.closed with
    | false => simpa [FrameQueue.operate, closed] using logged.pushDiscontinuity epoch reason closed
    | true => simpa [FrameQueue.operate, FrameQueue.pushDiscontinuity, closed] using logged
  | tryEvent => exact logged.tryEvent
  | waitEvent => exact logged.tryEvent
  | close =>
    rw [FrameQueue.operate, List.append_nil]
    exact ⟨logged.limit, ⟨logged.balanced.events, logged.balanced.recovery⟩, logged.fronted,
      logged.short, logged.announced⟩
  | takeOverflowed =>
    rw [FrameQueue.operate, List.append_nil]
    exact ⟨logged.limit, ⟨logged.balanced.events, logged.balanced.recovery⟩, logged.fronted,
      logged.short, logged.announced⟩
  | acknowledgeRecovery generation epoch =>
    have same : (queue.acknowledgeRecovery generation epoch).1 =
        queue.setRecovery (queue.state.recovery.filter (fun pair =>
          !(QueueLog.acknowledged generation epoch).closes pair)) := by
      unfold FrameQueue.acknowledgeRecovery
      split_ifs with current
      · simp [current, QueueLog.closes, Option.filter_some]
      · have kept : queue.state.recovery.filter (fun pair =>
            !(QueueLog.acknowledged generation epoch).closes pair) = queue.state.recovery := by
          cases recovery : queue.state.recovery with
          | none => rfl
          | some pair =>
            have other : pair ≠ (generation, epoch) := by simpa [recovery] using current
            simp [QueueLog.closes, other, Option.filter_some]
        rw [kept]
        rfl
    rw [FrameQueue.operate, same]
    exact logged.settle _ _ ⟨rfl, rfl, rfl⟩ rfl
  | clearRecovery =>
    apply logged.settle .cleared none ⟨rfl, rfl, rfl⟩
    cases queue.state.recovery <;> rfl

end FrameQueue

end BetterParsec
