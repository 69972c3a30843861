import BetterParsec.Client.NeedsIdrLatch
import BetterParsec.Client.PendingAck

set_option autoImplicit false
set_option linter.all false

/-!
# The retry ladder of the control sends

`ControlRetry` of `client-transport/src/session.rs` and the block of the session
tick that sends Subscribe, ACK and NeedsIdr on the control channel.  A rung is
climbed when a retry is granted, and the three controls share one episode.
-/

namespace BetterParsec

inductive ControlRetryAction where
  | retryDataChannel
  | restartIce
  | fail
  deriving DecidableEq

structure ControlRetry where
  failedAtMs : Option Nat
  step : Nat
  deriving DecidableEq

namespace ControlRetry

def default : ControlRetry := ⟨none, 0⟩

def onFailure (retry : ControlRetry) (nowMs : Nat) : ControlRetry × Bool :=
  ({ retry with failedAtMs := some nowMs }, retry.failedAtMs.isNone)

def onSuccess (_ : ControlRetry) : ControlRetry := default

def isOpen (retry : ControlRetry) : Bool := retry.failedAtMs.isSome

def poll (retry : ControlRetry) (nowMs : Nat) : ControlRetry × Option ControlRetryAction :=
  match retry.failedAtMs with
  | none => (retry, none)
  | some since =>
    if retry.step ≤ 2 then
      if controlBackoffMs.getD retry.step 0 ≤ nowMs - since then
        ({ retry with step := retry.step + 1 }, some .retryDataChannel)
      else (retry, none)
    else if retry.step = 3 then ({ retry with step := retry.step + 1 }, some .restartIce)
    else if retry.step = 4 then ({ retry with step := retry.step + 1 }, some .retryDataChannel)
    else (retry, some .fail)

end ControlRetry

inductive FecControl where
  | subscribe
  | ack (value : UInt32)
  | needsIdr (reason : UInt8)
  deriving DecidableEq

-- What one tick reads from the outside, and how its sends go.
structure ControlTick where
  nowMs : Nat
  -- A channel waits in `ack_open`.
  ackOpen : Bool
  pollAck : Option UInt32
  selectedEpoch : Option UInt32
  recoveryOpen : Bool
  pollNeedsIdr : Bool
  -- `control_message` has bytes for the control.
  encodes : FecControl → Bool
  sendSucceeds : FecControl → Bool
  signalingSends : Bool

inductive ControlEvent where
  | granted (nowMs : Nat)
  | failed (control : FecControl) (nowMs : Nat)
  | succeeded (control : FecControl)
  -- A granted retry found nothing to send.
  | moot
  | requestIdr
  | restartIce
  -- `poll` returned `Fail`.
  | fail
  deriving DecidableEq

structure ControlLoop where
  ackChannel : Bool
  subscribeSent : Bool
  pendingAck : PendingAck
  needsIdr : NeedsIdrLatch
  controlRetry : ControlRetry
  -- The session loop was left; what it held is not read any more.
  ended : Bool
  deriving DecidableEq

-- The ladder and the local variables of the block, in the middle of a tick.
structure ControlSends where
  retry : ControlRetry
  maySend : Bool
  retryGranted : Bool
  channelBroken : Bool
  attempted : Bool
  ended : Bool
  events : List ControlEvent
  deriving DecidableEq

namespace ControlRetry

-- Sends are free unless an episode is open; then they wait for the ladder.
def admitTick (retry : ControlRetry) (tick : ControlTick) : ControlSends :=
  let sends : ControlSends :=
    { retry := retry
      maySend := true
      retryGranted := false
      channelBroken := false
      attempted := false
      ended := false
      events := [] }
  if retry.isOpen then
    let polled := retry.poll tick.nowMs
    match polled.2 with
    | some .retryDataChannel =>
      { sends with
        retry := polled.1, retryGranted := polled.1.isOpen, events := [.granted tick.nowMs] }
    | some .restartIce =>
      { sends with
        retry := polled.1, maySend := false, ended := !tick.signalingSends
        events := [.restartIce] }
    | some .fail =>
      { sends with retry := polled.1, maySend := false, ended := true, events := [.fail] }
    | none => { sends with retry := polled.1, maySend := false }
  else sends

end ControlRetry

namespace ControlSends

variable (sends : ControlSends) (tick : ControlTick)

def attempts (control : Option FecControl) : Bool :=
  sends.maySend && !sends.channelBroken && control.any tick.encodes

def delivers (control : Option FecControl) : Bool :=
  sends.attempts tick control && control.any tick.sendSucceeds

def sendFailed (control : FecControl) : ControlSends :=
  let failure := sends.retry.onFailure tick.nowMs
  { sends with
    retry := failure.1
    channelBroken := true
    attempted := true
    ended := failure.2 && !tick.signalingSends
    events := sends.events ++ [ControlEvent.failed control tick.nowMs] ++
      if failure.2 then [.requestIdr] else [] }

-- One control of the block, if it is pending.
def offer (control : Option FecControl) : ControlSends :=
  match control with
  | none => sends
  | some pending =>
    if sends.attempts tick pending then
      if tick.sendSucceeds pending then
        { sends with
          retry := sends.retry.onSuccess
          attempted := true
          events := sends.events ++ [ControlEvent.succeeded pending] }
      else sends.sendFailed tick pending
    else sends

def settle : ControlSends :=
  if sends.retryGranted && !sends.attempted then
    { sends with retry := sends.retry.onSuccess, events := sends.events ++ [ControlEvent.moot] }
  else sends

end ControlSends

namespace ControlLoop

def start : ControlLoop := ⟨false, false, .default, .default, .default, false⟩

def polledAck (state : ControlLoop) (tick : ControlTick) : PendingAck :=
  match tick.pollAck with
  | none => state.pendingAck
  | some value => state.pendingAck.latch tick.selectedEpoch value

def polledIdr (state : ControlLoop) (tick : ControlTick) : NeedsIdrLatch :=
  (state.needsIdr.follow tick.recoveryOpen).drain tick.pollNeedsIdr

-- The three controls in their order; each finds the ladder as the one before left it.
def sendControls (state : ControlLoop) (tick : ControlTick) (admitted : ControlSends) :
    ControlLoop × List ControlEvent :=
  let subscribe := bif state.subscribeSent then none else some FecControl.subscribe
  let subscribed := admitted.offer tick subscribe
  let polledAck := state.polledAck tick
  let ack := polledAck.value.map .ack
  let acked := subscribed.offer tick ack
  let polledIdr := state.polledIdr tick
  let needsIdr := bif polledIdr.due tick.nowMs then some (FecControl.needsIdr 1) else none
  let settled := (acked.offer tick needsIdr).settle
  ({ state with
      subscribeSent := state.subscribeSent || admitted.delivers tick subscribe
      pendingAck := bif subscribed.delivers tick ack then polledAck.clear else polledAck
      needsIdr := bif acked.delivers tick needsIdr then polledIdr.sent tick.nowMs else polledIdr
      controlRetry := settled.retry
      ended := settled.ended }, settled.events)

def leave (state : ControlLoop) (sends : ControlSends) : ControlLoop × List ControlEvent :=
  ({ state with controlRetry := sends.retry, ended := sends.ended }, sends.events)

def tick (state : ControlLoop) (tick : ControlTick) : ControlLoop × List ControlEvent :=
  if state.ended then (state, [])
  else
    let ready := { state with ackChannel := state.ackChannel || tick.ackOpen }
    let admitted := state.controlRetry.admitTick tick
    if admitted.ended then ready.leave admitted
    else if ready.ackChannel then ready.sendControls tick admitted
    else ready.leave admitted.settle

end ControlLoop

namespace ControlEvent

def closes : ControlEvent → Bool
  | .succeeded _ | .moot => true
  | _ => false

def isFailure : ControlEvent → Bool
  | .failed _ _ => true
  | _ => false

end ControlEvent

section Ladder

def episodeNext (episode : List ControlEvent) (event : ControlEvent) : List ControlEvent :=
  if event.closes then [] else episode ++ [event]

-- What was logged since the last episode was closed.
def episode (log : List ControlEvent) : List ControlEvent := log.foldl episodeNext []

-- The last failure, and of every granted retry the failure before it.
def gapsNext (gaps : Option Nat × List (Nat × Nat)) : ControlEvent → Option Nat × List (Nat × Nat)
  | .failed _ nowMs => (some nowMs, gaps.2)
  | .granted nowMs => (gaps.1, gaps.2 ++ (gaps.1.map (·, nowMs)).toList)
  | _ => gaps

def gaps (episode : List ControlEvent) : List (Nat × Nat) := (episode.foldl gapsNext (none, [])).2

-- An episode that went through every rung.
structure FullLadder (episode : List ControlEvent) : Prop where
  opened : ∃ control nowMs, episode.head? = some (.failed control nowMs)
  mirrored : episode.count .requestIdr = 1
  restarted : episode.count .restartIce = 1
  failures : 5 ≤ episode.countP ControlEvent.isFailure
  unsent : ∀ control, .succeeded control ∉ episode
  spaced : List.Forall₂ (fun backoff gap => gap.1 + backoff ≤ gap.2) controlBackoffMs
    ((gaps episode).take 3)

-- The episodes between two ticks, by the time of the last failure and the step of the ladder.
inductive Climb : Nat → Nat → List ControlEvent → Prop where
  | opened (control : FecControl) (nowMs : Nat) :
      Climb nowMs 0 [.failed control nowMs, .requestIdr]
  | backedOff {since step : Nat} {episode : List ControlEvent} (earlier : Climb since step episode)
      (low : step ≤ 2) (control : FecControl) {nowMs : Nat}
      (waited : controlBackoffMs.getD step 0 ≤ nowMs - since) :
      Climb nowMs (step + 1)
        (episode ++ [ControlEvent.granted nowMs] ++ [ControlEvent.failed control nowMs])
  | restarted {since : Nat} {episode : List ControlEvent} (earlier : Climb since 3 episode) :
      Climb since 4 (episode ++ [ControlEvent.restartIce])
  | last {since : Nat} {episode : List ControlEvent} (earlier : Climb since 4 episode)
      (control : FecControl) (nowMs : Nat) :
      Climb nowMs 5 (episode ++ [ControlEvent.granted nowMs] ++ [ControlEvent.failed control nowMs])

-- A retry that the ladder grants.
structure DueRung (since step nowMs : Nat) (episode : List ControlEvent) : Prop where
  climb : Climb since step episode
  due : (step ≤ 2 ∧ controlBackoffMs.getD step 0 ≤ nowMs - since) ∨ step = 4

-- What may be logged in an episode.
inductive Ensues : List ControlEvent → ControlEvent → Prop where
  | sends (control : FecControl) : Ensues [] (.succeeded control)
  | opens (control : FecControl) (nowMs : Nat) : Ensues [] (.failed control nowMs)
  | mirrors (control : FecControl) (nowMs : Nat) : Ensues [.failed control nowMs] .requestIdr
  | retries {since step nowMs : Nat} {episode : List ControlEvent}
      (rung : DueRung since step nowMs episode) : Ensues episode (.granted nowMs)
  | restarts {since : Nat} {episode : List ControlEvent} (climb : Climb since 3 episode) :
      Ensues episode .restartIce
  | ends {since : Nat} {episode : List ControlEvent} (climb : Climb since 5 episode) :
      Ensues episode .fail
  | settles {episode : List ControlEvent} {nowMs : Nat} (event : ControlEvent)
      (settling : event.closes = true ∨ event.isFailure = true) :
      Ensues (episode ++ [ControlEvent.granted nowMs]) event

def LadderLaw (before : List ControlEvent) (event : ControlEvent) : Prop :=
  Ensues (episode before) event

-- The ladder of the session loop between two ticks, and the episode it is in.
inductive OnLadder (state : ControlLoop) : List ControlEvent → Prop where
  | idle (fresh : state.controlRetry = .default) : OnLadder state []
  | climbing {since step : Nat} {episode : List ControlEvent} (climb : Climb since step episode)
      (held : state.controlRetry = ⟨some since, step⟩) : OnLadder state episode
  | left {episode : List ControlEvent} (ended : state.ended = true) :
      OnLadder state (episode ++ [ControlEvent.fail])

-- And in the middle of a tick.
inductive Standing (nowMs : Nat) : ControlSends → List ControlEvent → Prop where
  | free {sends : ControlSends} (fresh : sends.retry = .default)
      (whole : sends.channelBroken = false)
      (spent : sends.retryGranted = true → sends.attempted = true) : Standing nowMs sends []
  | trying {sends : ControlSends} {since step : Nat} {episode : List ControlEvent}
      (rung : DueRung since step nowMs episode) (held : sends.retry = ⟨some since, step + 1⟩)
      (whole : sends.channelBroken = false) (granted : sends.retryGranted = true)
      (first : sends.attempted = false) :
      Standing nowMs sends (episode ++ [ControlEvent.granted nowMs])
  | held {sends : ControlSends} {since step : Nat} {episode : List ControlEvent}
      (climb : Climb since step episode) (held : sends.retry = ⟨some since, step⟩)
      (still : sends.maySend = false ∨ sends.channelBroken = true)
      (spent : sends.retryGranted = true → sends.attempted = true) : Standing nowMs sends episode

-- What was logged up to here keeps to the ladder, and so do the sends so far.
structure Keeps (nowMs : Nat) (log : List ControlEvent) (sends : ControlSends) : Prop where
  law : Runs.Emissions LadderLaw log
  standing : Standing nowMs sends (episode log)

theorem episode_concat (log : List ControlEvent) (event : ControlEvent) :
    episode (log ++ [event]) = episodeNext (episode log) event := by
  rw [episode, List.foldl_append]
  rfl

theorem episode_concat_open {log current : List ControlEvent} (same : episode log = current)
    {event : ControlEvent} (stays : event.closes = false) :
    episode (log ++ [event]) = current ++ [event] := by
  rw [episode_concat, episodeNext, if_neg (by simp [stays]), same]

theorem episode_concat_closed (log : List ControlEvent) {event : ControlEvent}
    (closes : event.closes = true) : episode (log ++ [event]) = [] := by
  rw [episode_concat, episodeNext, if_pos closes]

namespace Climb

variable {since step : Nat} {current : List ControlEvent}

theorem step_le (climb : Climb since step current) : step ≤ 5 := by
  cases climb <;> omega

theorem two (climb : Climb since step current) :
    ∃ first second rest, current = first :: second :: rest := by
  induction climb with
  | opened control nowMs => exact ⟨_, _, [], rfl⟩
  | backedOff _ _ control _ ih =>
    obtain ⟨first, second, rest, rfl⟩ := ih
    exact ⟨first, second, _, rfl⟩
  | restarted _ ih =>
    obtain ⟨first, second, rest, rfl⟩ := ih
    exact ⟨first, second, _, rfl⟩
  | last _ control nowMs ih =>
    obtain ⟨first, second, rest, rfl⟩ := ih
    exact ⟨first, second, _, rfl⟩

-- The one episode that ends in `Fail`.
theorem fullLadder (climb : Climb since 5 current) : FullLadder current := by
  cases climb with
  | backedOff _ low => omega
  | last fourth control nowMs =>
    cases fourth with
    | backedOff _ low => omega
    | restarted third =>
      cases third with
      | backedOff second _ control3 waited3 =>
        cases second with
        | backedOff first _ control2 waited2 =>
          cases first with
          | backedOff opening _ control1 waited1 =>
            cases opening with
            | opened control0 time0 =>
              simp only [controlBackoffMs, List.getD_cons_zero] at waited1
              simp only [controlBackoffMs, List.getD_cons_zero, List.getD_cons_succ] at waited2
              simp only [controlBackoffMs, List.getD_cons_zero, List.getD_cons_succ] at waited3
              simp only [List.append_assoc, List.cons_append, List.nil_append]
              exact
                { opened := ⟨_, _, rfl⟩
                  mirrored := rfl
                  restarted := rfl
                  failures := le_rfl
                  unsent := by simp
                  spaced := by
                    simp [gaps, gapsNext, controlBackoffMs]
                    omega }

end Climb

theorem DueRung.failed {since step nowMs : Nat} {current : List ControlEvent}
    (rung : DueRung since step nowMs current) (control : FecControl) :
    Climb nowMs (step + 1)
      (current ++ [ControlEvent.granted nowMs] ++ [ControlEvent.failed control nowMs]) := by
  rcases rung.due with ⟨low, waited⟩ | rfl
  · exact .backedOff rung.climb low control waited
  · exact .last rung.climb control nowMs

-- The answer of `poll` on an open episode.
theorem poll_cases {since step : Nat} {current : List ControlEvent}
    (climb : Climb since step current) (nowMs : Nat) :
    (DueRung since step nowMs current ∧
        ControlRetry.poll ⟨some since, step⟩ nowMs =
          (⟨some since, step + 1⟩, some .retryDataChannel)) ∨
      (step = 3 ∧ ControlRetry.poll ⟨some since, step⟩ nowMs =
          (⟨some since, 4⟩, some .restartIce)) ∨
      (step = 5 ∧ ControlRetry.poll ⟨some since, step⟩ nowMs =
          (⟨some since, step⟩, some .fail)) ∨
      ControlRetry.poll ⟨some since, step⟩ nowMs = (⟨some since, step⟩, none) := by
  have most := climb.step_le
  by_cases low : step ≤ 2
  · by_cases waited : controlBackoffMs.getD step 0 ≤ nowMs - since
    · refine .inl ⟨⟨climb, .inl ⟨low, waited⟩⟩, ?_⟩
      simp only [ControlRetry.poll, if_pos low, if_pos waited]
    · refine .inr (.inr (.inr ?_))
      simp only [ControlRetry.poll, if_pos low, if_neg waited]
  · obtain rfl | rfl | rfl : step = 3 ∨ step = 4 ∨ step = 5 := by omega
    · exact .inr (.inl ⟨rfl, rfl⟩)
    · exact .inl ⟨⟨climb, .inr rfl⟩, rfl⟩
    · exact .inr (.inr (.inl ⟨rfl, rfl⟩))

namespace Keeps

variable {seen : List ControlEvent} {sends : ControlSends} {tick : ControlTick}

-- A success closes the episode, whether the send was free or a granted retry.
theorem succeed (keeps : Keeps tick.nowMs (seen ++ sends.events) sends) (control : FecControl)
    (may : sends.maySend = true) (whole : sends.channelBroken = false) :
    Keeps tick.nowMs (seen ++ (sends.events ++ [ControlEvent.succeeded control]))
      { sends with
        retry := sends.retry.onSuccess
        attempted := true
        events := sends.events ++ [ControlEvent.succeeded control] } := by
  rw [← List.append_assoc]
  constructor
  · apply keeps.law.concat
    have standing := keeps.standing
    rw [LadderLaw]
    generalize episode (seen ++ sends.events) = current at standing
    cases standing with
    | free fresh whole spent => exact .sends control
    | trying rung held whole granted first => exact .settles _ (.inl rfl)
    | held climb held still spent => simp [may, whole] at still
  · rw [episode_concat_closed _ rfl]
    exact .free rfl whole fun _ => rfl

theorem fail (keeps : Keeps tick.nowMs (seen ++ sends.events) sends) (control : FecControl)
    (may : sends.maySend = true) (whole : sends.channelBroken = false) :
    Keeps tick.nowMs (seen ++ (sends.sendFailed tick control).events)
      (sends.sendFailed tick control) := by
  obtain ⟨law, standing⟩ := keeps
  generalize found : episode (seen ++ sends.events) = current at standing
  have failed := @episode_concat_open _ _ found (.failed control tick.nowMs) rfl
  rw [List.append_assoc] at failed
  cases standing with
  | free fresh whole spent =>
    -- The first failure of an episode is mirrored.
    have events : (sends.sendFailed tick control).events =
        sends.events ++ [ControlEvent.failed control tick.nowMs] ++ [ControlEvent.requestIdr] := by
      simp [ControlSends.sendFailed, ControlRetry.onFailure, fresh, ControlRetry.default]
    have mirrored := @episode_concat_open _ _ failed .requestIdr rfl
    rw [events]
    constructor
    · rw [← List.append_assoc, ← List.append_assoc]
      apply Runs.Emissions.concat
      · apply law.concat
        rw [LadderLaw, found]
        exact .opens control tick.nowMs
      · rw [LadderLaw, List.append_assoc, failed]
        exact .mirrors control tick.nowMs
    · rw [← List.append_assoc, mirrored]
      refine .held (.opened control tick.nowMs) ?_ (.inr rfl) fun _ => rfl
      simp [ControlSends.sendFailed, ControlRetry.onFailure, fresh, ControlRetry.default]
  | trying rung held whole granted first =>
    have events : (sends.sendFailed tick control).events =
        sends.events ++ [ControlEvent.failed control tick.nowMs] := by
      simp [ControlSends.sendFailed, ControlRetry.onFailure, held]
    rw [events]
    constructor
    · rw [← List.append_assoc]
      apply law.concat
      rw [LadderLaw, found]
      exact .settles _ (.inr rfl)
    · rw [failed]
      refine .held (rung.failed control) ?_ (.inr rfl) fun _ => rfl
      simp [ControlSends.sendFailed, ControlRetry.onFailure, held]
  | held climb held still spent => simp [may, whole] at still

theorem offer (keeps : Keeps tick.nowMs (seen ++ sends.events) sends)
    (control : Option FecControl) :
    Keeps tick.nowMs (seen ++ (sends.offer tick control).events) (sends.offer tick control) := by
  cases control with
  | none => exact keeps
  | some control =>
    simp only [ControlSends.offer]
    split_ifs with attempts goes
    · obtain ⟨⟨may, whole⟩, -⟩ : (sends.maySend = true ∧ sends.channelBroken = false) ∧ _ := by
        simpa [ControlSends.attempts] using attempts
      exact keeps.succeed control may whole
    · obtain ⟨⟨may, whole⟩, -⟩ : (sends.maySend = true ∧ sends.channelBroken = false) ∧ _ := by
        simpa [ControlSends.attempts] using attempts
      exact keeps.fail control may whole
    · exact keeps

-- At the end of a tick every granted retry was used or closed the episode.
theorem settle (keeps : Keeps tick.nowMs (seen ++ sends.events) sends) {state : ControlLoop}
    (same : state.controlRetry = sends.settle.retry) :
    Runs.Emissions LadderLaw (seen ++ sends.settle.events) ∧
      OnLadder state (episode (seen ++ sends.settle.events)) := by
  obtain ⟨law, standing⟩ := keeps
  generalize found : episode (seen ++ sends.events) = current at standing
  rw [ControlSends.settle] at same ⊢
  split_ifs at same ⊢ with moot
  · obtain ⟨granted, unused⟩ : sends.retryGranted = true ∧ sends.attempted = false := by
      simpa using moot
    rw [← List.append_assoc]
    constructor
    · apply law.concat
      rw [LadderLaw, found]
      cases standing with
      | free fresh whole spent => simp [spent granted] at unused
      | trying rung held whole granted first => exact .settles _ (.inl rfl)
      | held climb held still spent => simp [spent granted] at unused
    · rw [episode_concat_closed _ rfl]
      exact .idle same
  · refine ⟨law, ?_⟩
    rw [found]
    cases standing with
    | free fresh whole spent => exact .idle (same.trans fresh)
    | trying rung held whole granted first => simp [granted, first] at moot
    | held climb held still spent => exact .climbing climb (same.trans held)

end Keeps

-- What `admitTick` leaves: sends as the ladder allows them, or a session that is over.
theorem admit_keeps {state : ControlLoop} {seen : List ControlEvent}
    (law : Runs.Emissions LadderLaw seen) (onLadder : OnLadder state (episode seen))
    (alive : state.ended = false) (tick : ControlTick) :
    let admitted := state.controlRetry.admitTick tick
    Runs.Emissions LadderLaw (seen ++ admitted.events) ∧
      ((admitted.ended = false ∧
          Standing tick.nowMs admitted (episode (seen ++ admitted.events))) ∨
        (admitted.ended = true ∧ ∀ left : ControlLoop, left.controlRetry = admitted.retry →
          left.ended = true → OnLadder left (episode (seen ++ admitted.events)))) := by
  generalize found : episode seen = current at onLadder
  cases onLadder with
  | left ended => simp [alive] at ended
  | idle fresh =>
    have free : state.controlRetry.admitTick tick =
        ⟨.default, true, false, false, false, false, []⟩ := by
      simp [fresh, ControlRetry.admitTick, ControlRetry.isOpen, ControlRetry.default]
    rw [free]
    refine ⟨by simpa using law, .inl ⟨rfl, ?_⟩⟩
    rw [List.append_nil, found]
    exact .free rfl rfl (by simp)
  | climbing climb held =>
    simp only [held, ControlRetry.admitTick, ControlRetry.isOpen, Option.isSome_some, if_true]
    rcases poll_cases climb tick.nowMs with
      ⟨rung, polled⟩ | ⟨rfl, polled⟩ | ⟨rfl, polled⟩ | polled
    · simp only [polled]
      constructor
      · apply law.concat
        rw [LadderLaw, found]
        exact .retries rung
      · rw [episode_concat_open found rfl]
        exact .inl ⟨trivial, .trying rung rfl rfl rfl rfl⟩
    · simp only [polled]
      constructor
      · apply law.concat
        rw [LadderLaw, found]
        exact .restarts climb
      · rw [episode_concat_open found rfl]
        cases signals : tick.signalingSends with
        | true => exact .inl ⟨rfl, .held (.restarted climb) rfl (.inl rfl) (by simp)⟩
        | false => exact .inr ⟨rfl, fun left same _ => .climbing (.restarted climb) same⟩
    · simp only [polled]
      constructor
      · apply law.concat
        rw [LadderLaw, found]
        exact .ends climb
      · rw [episode_concat_open found rfl]
        exact .inr ⟨trivial, fun left _ ended => .left ended⟩
    · simp only [polled, List.append_nil, found]
      exact ⟨law, .inl ⟨trivial, .held climb rfl (.inl rfl) (by simp)⟩⟩

theorem tick_keeps {state : ControlLoop} {seen : List ControlEvent}
    (law : Runs.Emissions LadderLaw seen) (onLadder : OnLadder state (episode seen))
    (tick : ControlTick) :
    Runs.Emissions LadderLaw (seen ++ (state.tick tick).2) ∧
      OnLadder (state.tick tick).1 (episode (seen ++ (state.tick tick).2)) := by
  simp only [ControlLoop.tick]
  split_ifs with ended leaves channel
  · simpa using ⟨law, onLadder⟩
  · obtain ⟨lawful, ⟨alive, -⟩ | ⟨-, left⟩⟩ := admit_keeps law onLadder (by simpa using ended) tick
    · simp [alive] at leaves
    · exact ⟨lawful, left _ rfl leaves⟩
  · obtain ⟨lawful, ⟨-, standing⟩ | ⟨dead, -⟩⟩ :=
      admit_keeps law onLadder (by simpa using ended) tick
    · exact (((Keeps.mk lawful standing).offer _).offer _).offer _ |>.settle rfl
    · exact absurd dead leaves
  · obtain ⟨lawful, ⟨-, standing⟩ | ⟨dead, -⟩⟩ :=
      admit_keeps law onLadder (by simpa using ended) tick
    · exact (Keeps.mk lawful standing).settle rfl
    · exact absurd dead leaves

theorem run_keeps (ticks : List ControlTick) :
    let run := Runs.run ControlLoop.tick ControlLoop.start ticks
    Runs.Emissions LadderLaw run.2 ∧ OnLadder run.1 (episode run.2) := by
  have kept := Runs.run_invariant_of_forall ControlLoop.tick
    (fun seen state => Runs.Emissions LadderLaw seen ∧ OnLadder state (episode seen))
    (fun _ _ tick held => tick_keeps held.1 held.2 tick) [] .start ticks
    ⟨Runs.emissions_nil _, .idle rfl⟩
  simpa using kept

namespace Ensues

variable {control : FecControl} {nowMs : Nat} {event : ControlEvent}

theorem of_closed (follows : Ensues [] event) :
    (∃ control, event = .succeeded control) ∨ ∃ control nowMs, event = .failed control nowMs := by
  generalize found : ([] : List ControlEvent) = current at follows
  cases follows with
  | sends control => exact .inl ⟨control, rfl⟩
  | opens control nowMs => exact .inr ⟨control, nowMs, rfl⟩
  | mirrors => simp at found
  | retries rung =>
    obtain ⟨_, _, _, rfl⟩ := rung.climb.two
    simp at found
  | restarts climb | ends climb =>
    obtain ⟨_, _, _, rfl⟩ := climb.two
    simp at found
  | settles => simp at found

-- The first failure of an episode is mirrored before anything else.
theorem of_failed (follows : Ensues [.failed control nowMs] event) : event = .requestIdr := by
  generalize found : [ControlEvent.failed control nowMs] = current at follows
  cases follows with
  | sends | opens => simp at found
  | mirrors => rfl
  | retries rung =>
    obtain ⟨_, _, _, rfl⟩ := rung.climb.two
    simp at found
  | restarts climb | ends climb =>
    obtain ⟨_, _, _, rfl⟩ := climb.two
    simp at found
  | settles => simpa using (List.append_eq_singleton_iff.mp found.symm)

theorem climb_first {since step : Nat}
    (climb : Climb since step [.failed control nowMs, .requestIdr]) : since = nowMs ∧ step = 0 := by
  generalize found : [ControlEvent.failed control nowMs, .requestIdr] = current at climb
  cases climb with
  | opened => simp_all
  | backedOff | restarted | last =>
    have lasts := congrArg List.getLast? found
    simp at lasts

-- Then the ladder is on its first rung.
theorem of_mirrored (follows : Ensues [.failed control nowMs, .requestIdr] event) :
    ∃ retryMs, event = .granted retryMs ∧ nowMs + 100 ≤ retryMs := by
  generalize found : [ControlEvent.failed control nowMs, .requestIdr] = current at follows
  cases follows with
  | sends | opens | mirrors => simp at found
  | retries rung =>
    subst found
    obtain ⟨rfl, rfl⟩ := climb_first rung.climb
    have waited := rung.due
    simp only [controlBackoffMs, List.getD_cons_zero] at waited
    exact ⟨_, rfl, by omega⟩
  | restarts climb | ends climb =>
    subst found
    have low := (climb_first climb).2
    omega
  | settles =>
    have lasts := congrArg List.getLast? found
    simp at lasts

end Ensues

theorem episode_of_successes {before between : List ControlEvent}
    (law : Runs.Emissions LadderLaw (before ++ between)) (closed : episode before = [])
    (unfailed : ∀ event ∈ between, event.isFailure = false) : episode (before ++ between) = [] := by
  induction between using List.reverseRecOn with
  | nil => simpa using closed
  | append_singleton front event ih =>
    have front_law : Runs.Emissions LadderLaw (before ++ front) := fun start other rest split =>
      law start other (rest ++ [event]) (by rw [← List.append_assoc, split]; simp)
    have still := ih front_law fun other member => unfailed other (List.mem_append_left _ member)
    have follows : Ensues [] event := by
      have lawful := law (before ++ front) event [] (by simp)
      rwa [LadderLaw, still] at lawful
    rw [← List.append_assoc]
    rcases follows.of_closed with ⟨control, rfl⟩ | ⟨control, nowMs, rfl⟩
    · exact episode_concat_closed _ rfl
    · simpa [ControlEvent.isFailure] using unfailed _ (List.mem_append_right _ List.mem_cons_self)

-- What follows a first failure: it is mirrored, and the next retry waits as on the first rung.
theorem follows_first {before after : List ControlEvent} {control : FecControl} {nowMs : Nat}
    {state : ControlLoop} (closed : episode before = [])
    (law : Runs.Emissions LadderLaw (before ++ ControlEvent.failed control nowMs :: after))
    (onLadder : OnLadder state (episode (before ++ ControlEvent.failed control nowMs :: after))) :
    after = [.requestIdr] ∨
      ∃ retryMs rest, after = .requestIdr :: .granted retryMs :: rest ∧ nowMs + 100 ≤ retryMs := by
  have failed := @episode_concat_open _ _ closed (.failed control nowMs) rfl
  cases after with
  | nil =>
    rw [failed] at onLadder
    generalize found : [] ++ [ControlEvent.failed control nowMs] = current at onLadder
    cases onLadder with
    | idle => simp at found
    | climbing climb =>
      obtain ⟨_, _, _, rfl⟩ := climb.two
      simp at found
    | left =>
      have lasts := congrArg List.getLast? found
      simp at lasts
  | cons first after =>
    have mirrored := law (before ++ [ControlEvent.failed control nowMs]) first after (by simp)
    rw [LadderLaw, failed] at mirrored
    obtain rfl := mirrored.of_failed
    cases after with
    | nil => exact .inl rfl
    | cons second rest =>
      have granted := law (before ++ [ControlEvent.failed control nowMs] ++
        [ControlEvent.requestIdr]) second rest (by simp)
      rw [LadderLaw, episode_concat_open failed rfl] at granted
      obtain ⟨retryMs, rfl, waited⟩ := granted.of_mirrored
      exact .inr ⟨retryMs, rest, rfl, waited⟩

/-- `Fail` is returned only after every rung of one episode failed; a success, and a granted
retry with nothing to send, puts the ladder back, and the next failure starts from the first
rung. -/
theorem run_control_ladder (ticks : List ControlTick) :
    let run := Runs.run ControlLoop.tick ControlLoop.start ticks
    (∀ before after, run.2 = before ++ ControlEvent.fail :: after → FullLadder (episode before)) ∧
      (∀ closing ∈ run.2.getLast?, closing.closes = true → run.1.controlRetry = .default) ∧
      ∀ before closing between control nowMs after,
        run.2 = before ++ closing :: (between ++ ControlEvent.failed control nowMs :: after) →
          closing.closes = true → (∀ event ∈ between, event.isFailure = false) →
            after = [.requestIdr] ∨ ∃ retryMs rest,
              after = .requestIdr :: .granted retryMs :: rest ∧ nowMs + 100 ≤ retryMs := by
  obtain ⟨law, onLadder⟩ := run_keeps ticks
  intro run
  refine ⟨fun before after split => ?_, fun closing last closes => ?_, ?_⟩
  · have fails := law before .fail after split
    rw [LadderLaw] at fails
    generalize episode before = current at fails
    cases fails with
    | ends climb => exact climb.fullLadder
    | settles _ settling => simp [ControlEvent.closes, ControlEvent.isFailure] at settling
  · obtain ⟨front, split⟩ := List.getLast?_eq_some_iff.mp last
    have closed : episode run.2 = [] := by
      rw [split]
      exact episode_concat_closed front closes
    have idle : OnLadder run.1 (episode run.2) := onLadder
    rw [closed] at idle
    generalize found : ([] : List ControlEvent) = current at idle
    cases idle with
    | idle fresh => exact fresh
    | climbing climb =>
      obtain ⟨_, _, _, rfl⟩ := climb.two
      simp at found
    | left => simp at found
  · intro before closing between control nowMs after split closes unfailed
    have joined : run.2 =
        (before ++ [closing] ++ between) ++ ControlEvent.failed control nowMs :: after := by
      rw [split]
      simp
    have closed : episode (before ++ [closing] ++ between) = [] := by
      apply episode_of_successes _ (episode_concat_closed before closes) unfailed
      intro start event rest front
      exact law start event (rest ++ ControlEvent.failed control nowMs :: after) (by
        show run.2 = _
        rw [joined, front]
        simp)
    have onRun : OnLadder run.1 (episode run.2) := onLadder
    have lawRun : Runs.Emissions LadderLaw run.2 := law
    rw [joined] at onRun lawRun
    exact follows_first closed lawRun onRun

-- A channel on which nothing is sent.
def deadTick (nowMs : Nat) : ControlTick :=
  { nowMs := nowMs
    ackOpen := true
    pollAck := none
    selectedEpoch := none
    recoveryOpen := false
    pollNeedsIdr := false
    encodes := fun _ => true
    sendSucceeds := fun _ => false
    signalingSends := true }

example :
    (Runs.run ControlLoop.tick ControlLoop.start
      ([0, 100, 350, 850, 900, 950, 1000].map deadTick)).2.getLast? = some .fail := by
  decide

end Ladder

end BetterParsec
