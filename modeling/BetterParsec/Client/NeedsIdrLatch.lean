import BetterParsec.Library.Runs

set_option autoImplicit false
set_option linter.all false

/-!
# The NeedsIdr latch of the session loop

Each tick reads whether a decoder recovery is open, drains the bare request
flag, and sends a NeedsIdr control when the latch says that one is due. The
latch has one slot for both: a request that is drained while the latch is open
leaves no mark in it.
-/

namespace BetterParsec

def controlBackoffMs : List Nat := [100, 250, 500]

structure NeedsIdrLatch where
  isOpen : Bool
  lastSentMs : Option Nat
  resends : Nat
  deriving DecidableEq

namespace NeedsIdrLatch

def default : NeedsIdrLatch := ⟨false, none, 0⟩

def openLatch (latch : NeedsIdrLatch) : NeedsIdrLatch :=
  if !latch.isOpen then ⟨true, none, 0⟩ else latch

def close (latch : NeedsIdrLatch) : NeedsIdrLatch :=
  if !latch.isOpen || latch.lastSentMs.isSome then default else latch

def due (latch : NeedsIdrLatch) (nowMs : Nat) : Bool :=
  latch.isOpen &&
    match latch.lastSentMs with
    | none => true
    | some last =>
        nowMs - last ≥ controlBackoffMs.getD (min latch.resends (controlBackoffMs.length - 1)) 0

def sent (latch : NeedsIdrLatch) (nowMs : Nat) : NeedsIdrLatch :=
  { latch with
    resends :=
      if latch.lastSentMs.isSome && latch.resends < controlBackoffMs.length - 1 then
        latch.resends + 1
      else latch.resends
    lastSentMs := some nowMs }

end NeedsIdrLatch

structure SessionTick where
  nowMs : Nat
  -- The control channel is there; without it the tick touches nothing below.
  ackChannel : Bool
  recoveryOpen : Bool
  pollNeedsIdr : Bool
  maySendControl : Bool
  channelBroken : Bool
  encodes : Bool
  sendSucceeds : Bool

inductive LatchEvent where
  | cleared
  | drained
  | sent
  deriving DecidableEq

namespace NeedsIdrLatch

-- The latch once the recovery and the request flag were read.
def follow (latch : NeedsIdrLatch) (recoveryOpen : Bool) : NeedsIdrLatch :=
  if recoveryOpen then latch.openLatch else latch.close

def drain (latch : NeedsIdrLatch) (pollNeedsIdr : Bool) : NeedsIdrLatch :=
  if pollNeedsIdr then latch.openLatch else latch

def sends (latch : NeedsIdrLatch) (tick : SessionTick) : Bool :=
  tick.maySendControl && !tick.channelBroken && latch.due tick.nowMs && tick.encodes &&
    tick.sendSucceeds

def ready (latch : NeedsIdrLatch) (tick : SessionTick) : NeedsIdrLatch :=
  (latch.follow tick.recoveryOpen).drain tick.pollNeedsIdr

def readings (latch : NeedsIdrLatch) (tick : SessionTick) : List LatchEvent :=
  (if latch.isOpen && !(latch.follow tick.recoveryOpen).isOpen then [LatchEvent.cleared] else []) ++
    (if tick.pollNeedsIdr then [LatchEvent.drained] else [])

def tick (latch : NeedsIdrLatch) (tick : SessionTick) : NeedsIdrLatch × List LatchEvent :=
  if !tick.ackChannel then (latch, [])
  else if (latch.ready tick).sends tick then
    ((latch.ready tick).sent tick.nowMs, latch.readings tick ++ [LatchEvent.sent])
  else (latch.ready tick, latch.readings tick)

end NeedsIdrLatch

-- A request was drained and no control has gone out since.
def LatchEvent.track (owed : Bool) : LatchEvent → Bool
  | .cleared => owed
  | .drained => true
  | .sent => false

def owed (events : List LatchEvent) : Bool := events.foldl LatchEvent.track false

-- The latch is not cleared under a request that was not sent.
def Served (before : List LatchEvent) (event : LatchEvent) : Prop :=
  event = .cleared → owed before = false

namespace NeedsIdrLatch

-- A request that is drained in the middle of an episode, after a first send, goes out at once.
def SentAtOnce (_ : List LatchEvent) (latch : NeedsIdrLatch) (tick : SessionTick) : Prop :=
  tick.ackChannel → tick.pollNeedsIdr → tick.recoveryOpen → latch.isOpen →
    latch.lastSentMs.isSome → latch.sends tick

instance (seen : List LatchEvent) (latch : NeedsIdrLatch) (tick : SessionTick) :
    Decidable (SentAtOnce seen latch tick) := by
  unfold SentAtOnce
  infer_instance

-- A request that is owed keeps the latch open and unsent, so that `close` refuses to clear it.
def Owing (events : List LatchEvent) (latch : NeedsIdrLatch) : Prop :=
  owed events → latch.isOpen ∧ latch.lastSentMs = none

theorem owed_append (events more : List LatchEvent) :
    owed (events ++ more) = more.foldl LatchEvent.track (owed events) := by
  simp [owed]

theorem openLatch_unsent {latch : NeedsIdrLatch} (unsent : latch.isOpen → latch.lastSentMs = none) :
    latch.openLatch.isOpen ∧ latch.openLatch.lastSentMs = none := by
  unfold openLatch
  cases isOpen : latch.isOpen with
  | true => simp [isOpen, unsent isOpen]
  | false => simp

/-- Reading the recovery leaves a latch alone that holds an unsent request. -/
theorem follow_of_owing {latch : NeedsIdrLatch} (recoveryOpen : Bool) (isOpen : latch.isOpen)
    (unsent : latch.lastSentMs = none) : latch.follow recoveryOpen = latch := by
  cases recoveryOpen <;> simp [follow, openLatch, close, isOpen, unsent]

/-- A latch that is closed, or that was sent and closed, opens afresh. -/
theorem drained_unsent {latch : NeedsIdrLatch} {recoveryOpen : Bool}
    (fresh : recoveryOpen → latch.isOpen → latch.lastSentMs = none) :
    ((latch.follow recoveryOpen).drain true).isOpen ∧
      ((latch.follow recoveryOpen).drain true).lastSentMs = none := by
  apply openLatch_unsent
  intro still
  cases recoveryOpen with
  | true => exact (openLatch_unsent (fresh rfl)).2
  | false =>
    simp only [follow, close, Bool.false_eq_true, if_false] at still ⊢
    split_ifs at still ⊢ with clears
    · rfl
    · have kept : latch.isOpen ∧ latch.lastSentMs = none := by simpa using clears
      exact kept.2

theorem owed_readings (seen : List LatchEvent) (latch : NeedsIdrLatch) (tick : SessionTick) :
    owed (seen ++ latch.readings tick) = (owed seen || tick.pollNeedsIdr) := by
  unfold readings
  generalize (latch.isOpen && !(latch.follow tick.recoveryOpen).isOpen) = clears
  cases clears <;> cases tick.pollNeedsIdr <;> simp [owed_append, LatchEvent.track]

theorem tick_owing {seen : List LatchEvent} {latch : NeedsIdrLatch} (owing : latch.Owing seen)
    (tick : SessionTick) (atOnce : SentAtOnce seen latch tick) :
    (latch.tick tick).1.Owing (seen ++ (latch.tick tick).2) := by
  unfold NeedsIdrLatch.tick
  split_ifs with absent sends
  · simpa using owing
  · intro debt
    simp [← List.append_assoc, owed_append _ [LatchEvent.sent], LatchEvent.track] at debt
  · intro debt
    rw [owed_readings] at debt
    cases poll : tick.pollNeedsIdr with
    | false =>
      rw [poll, Bool.or_false] at debt
      obtain ⟨isOpen, unsent⟩ := owing debt
      rw [ready, poll, follow_of_owing _ isOpen unsent]
      exact ⟨isOpen, unsent⟩
    | true =>
      rw [ready, poll]
      apply drained_unsent
      intro recoveryOpen isOpen
      by_contra before
      -- The latch is open already, so draining leaves it as it is, and the tick has to send.
      have same : latch.ready tick = latch := by
        simp [ready, follow, drain, openLatch, recoveryOpen, isOpen]
      rw [same] at sends
      exact sends (atOnce (by simpa using absent) poll recoveryOpen isOpen
        (Option.isSome_iff_ne_none.mpr before))

theorem readings_served {seen : List LatchEvent} {latch : NeedsIdrLatch} (owing : latch.Owing seen)
    (earlier : Runs.Emissions Served seen) (tick : SessionTick) :
    Runs.Emissions Served (seen ++ latch.readings tick) := by
  rw [readings, ← List.append_assoc]
  apply Runs.Emissions.append
  · split_ifs with clears
    · apply earlier.concat
      intro _
      -- An owed request would have kept the latch open.
      by_contra debt
      obtain ⟨isOpen, unsent⟩ := owing (by simpa using debt)
      rw [follow_of_owing _ isOpen unsent] at clears
      simp [isOpen] at clears
    · simpa using earlier
  · rintro before event member rfl
    split_ifs at member <;> simp at member

theorem tick_served {seen : List LatchEvent} {latch : NeedsIdrLatch} (owing : latch.Owing seen)
    (earlier : Runs.Emissions Served seen) (tick : SessionTick) :
    Runs.Emissions Served (seen ++ (latch.tick tick).2) := by
  unfold NeedsIdrLatch.tick
  split_ifs
  · simpa using earlier
  · rw [← List.append_assoc]
    apply (readings_served owing earlier tick).concat
    simp [Served]
  · exact readings_served owing earlier tick

/-- In every run that sends such a request at once, no drained request is dropped unsent. -/
theorem run_requests_served (ticks : List SessionTick)
    (atOnce : Runs.Along tick SentAtOnce [] default ticks) :
    Runs.Emissions Served (Runs.run tick default ticks).2 := by
  have kept := Runs.run_invariant tick SentAtOnce
    (fun seen latch => latch.Owing seen ∧ Runs.Emissions Served seen)
    (fun _ _ input held guard => ⟨tick_owing held.1 input guard, tick_served held.1 held.2 input⟩)
    [] default ticks ⟨by simp [Owing, owed], Runs.emissions_nil _⟩ atOnce
  exact kept.2

def readyTick (nowMs : Nat) (recoveryOpen pollNeedsIdr : Bool) : SessionTick :=
  { nowMs := nowMs
    ackChannel := true
    recoveryOpen := recoveryOpen
    pollNeedsIdr := pollNeedsIdr
    maySendControl := true
    channelBroken := false
    encodes := true
    sendSucceeds := true }

/-- The second request comes when a resend is due. -/
theorem run_requests_served_resent :
    Runs.Emissions Served (Runs.run tick default
      [readyTick 0 true true, readyTick 100 true true, readyTick 150 false false]).2 :=
  run_requests_served _ (by decide)

/-- The second request comes 50 ms after the first send, and the recovery is acknowledged before
the resend is due. -/
theorem run_request_dropped :
    ¬ Runs.Emissions Served (Runs.run tick default
      [readyTick 0 true true, readyTick 50 true true, readyTick 100 false false]).2 := by
  have output : (Runs.run tick default
      [readyTick 0 true true, readyTick 50 true true, readyTick 100 false false]).2 =
      [.drained, .sent, .drained, .cleared] := by decide
  intro served
  have paid := served [.drained, .sent, .drained] .cleared [] output rfl
  simp [owed, LatchEvent.track] at paid

end NeedsIdrLatch

end BetterParsec
