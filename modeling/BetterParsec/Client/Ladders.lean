import BetterParsec.Client.Watchdog

set_option autoImplicit false
set_option linter.all false

/-!
# The ladders of the watchdogs

What the watchdogs return is read from the history of calls alone: the rungs
climbed since the last start, frame or progress are compared with the ladder of
the stage. The browser's watchdog answers every call as the native one does.
-/

namespace BetterParsec

open Runs (run)

section Receive

def ladder : List WatchdogAction :=
  [.stall, .requestIdr 1, .requestIdr 2, .requestIdr 3, .restartIce, .reconnect]

-- The calls so far: whether the watchdog is started, whether it is paused, and the actions its
-- ticks returned since the last start or frame that counted.
structure Episode where
  running : Bool
  paused : Bool
  actions : List WatchdogAction

namespace Episode

def idle : Episode := ⟨false, false, []⟩

def next (episode : Episode) : WatchdogCall × Option WatchdogAction → Episode
  | (.start _, _) => ⟨true, false, []⟩
  | (.stop, _) => { episode with running := false }
  | (.pause, _) => { episode with paused := true }
  | (.resume _, _) => { episode with paused := false }
  | (.frameReceived _, _) => if episode.running then { episode with actions := [] } else episode
  | (.tick _, action) => { episode with actions := episode.actions ++ action.toList }

def after (history : List (WatchdogCall × Option WatchdogAction)) : Episode :=
  history.foldl next idle

@[simp] theorem after_append_singleton (history : List (WatchdogCall × Option WatchdogAction))
    (entry : WatchdogCall × Option WatchdogAction) :
    after (history ++ [entry]) = (after history).next entry := by
  simp [after]

end Episode

-- A tick returns nothing before the start, after the stop, and while the watchdog is paused.
def Silent (before : List (WatchdogCall × Option WatchdogAction))
    (entry : WatchdogCall × Option WatchdogAction) : Prop :=
  ∀ nowMs action, entry = (.tick nowMs, some action) →
    (Episode.after before).running = true ∧ (Episode.after before).paused = false

namespace StallWatchdog

variable {dog : StallWatchdog}

-- The rungs that the latches say were climbed.
def climbed (dog : StallWatchdog) : List WatchdogAction :=
  (if dog.stallShown then [WatchdogAction.stall] else []) ++
    (List.range dog.idrAttempts).map (fun attempt => WatchdogAction.requestIdr (attempt + 1)) ++
    (if dog.iceRequested then [WatchdogAction.restartIce] else []) ++
    (if dog.reconnectRequested then [WatchdogAction.reconnect] else [])

structure Upright (dog : StallWatchdog) : Prop where
  config : dog.config = .default
  attempts : dog.idrAttempts ≤ 3
  shown : dog.stallShown = false →
    dog.idrAttempts = 0 ∧ dog.iceRequested = false ∧ dog.reconnectRequested = false
  ice : dog.iceRequested = true → dog.idrAttempts = 3
  reconnect : dog.reconnectRequested = true → dog.iceRequested = true

theorem Upright.climbed_ladder (upright : dog.Upright) : dog.climbed <+: ladder := by
  have attempts := upright.attempts
  by_cases shown : dog.stallShown
  · by_cases asked : dog.iceRequested
    · by_cases last : dog.reconnectRequested
      · simp [climbed, ladder, shown, asked, last, upright.ice asked, List.range_succ]
      · simp [climbed, ladder, shown, asked, last, upright.ice asked, List.range_succ]
    · have last : dog.reconnectRequested = false := by
        by_contra sent
        exact asked (upright.reconnect (by simpa using sent))
      generalize number : dog.idrAttempts = climbs at attempts
      interval_cases climbs <;> simp [climbed, ladder, shown, asked, last, number, List.range_succ]
  · obtain ⟨none_yet, asked, last⟩ := upright.shown (by simpa using shown)
    simp [climbed, ladder, shown, none_yet, asked, last]

/-- One tick climbs at most the next rung. -/
theorem Upright.tick (upright : dog.Upright) (nowMs : Nat) :
    (dog.tick nowMs).1.Upright ∧
      (dog.tick nowMs).1.climbed = dog.climbed ++ (dog.tick nowMs).2.toList := by
  have due := upright.attempts
  unfold StallWatchdog.tick
  split_ifs with silent
  · exact ⟨upright, by simp⟩
  have standing : dog.reconnectRequested = false := by simp_all
  cases rung : dog.nextRung (nowMs - dog.lastFrameMs) with
  | none => exact ⟨upright, by simp⟩
  | some rung =>
    unfold nextRung at rung
    simp only [upright.config, WatchdogConfig.default] at rung
    split_ifs at rung with hidden stalled idr ice reconnect
    · obtain rfl := Option.some.inj rung
      obtain ⟨none_yet, no_ice, -⟩ := upright.shown (by simpa using hidden)
      refine ⟨⟨upright.config, due, fun absurd => ?_, upright.ice, upright.reconnect⟩, ?_⟩
      · simp [fire] at absurd
      · simp [fire, climbed, none_yet, no_ice, standing, show dog.stallShown = false by simpa using hidden]
    · obtain rfl := Option.some.inj rung
      have no_ice : dog.iceRequested = false := by
        by_contra asked
        have := upright.ice (by simpa using asked)
        omega
      refine ⟨⟨upright.config, ?_, fun absurd => ?_, fun asked => ?_, upright.reconnect⟩, ?_⟩
      · exact idr.1
      · simp [fire] at absurd
        simp [absurd] at hidden
      · simp [fire, no_ice] at asked
      · simp [fire, climbed, no_ice, standing, List.range_succ]
    · obtain rfl := Option.some.inj rung
      have all : dog.idrAttempts = 3 := by omega
      refine ⟨⟨upright.config, due, fun absurd => ?_, fun _ => all, fun _ => rfl⟩, ?_⟩
      · simp [fire] at absurd
        simp [absurd] at hidden
      · have no_ice : dog.iceRequested = false := by simpa using ice.1
        simp [fire, climbed, no_ice, standing]
    · obtain rfl := Option.some.inj rung
      -- The ICE rung was due long before, so that it has been asked for.
      have asked : dog.iceRequested = true := by
        by_contra missing
        exact ice ⟨by simpa using missing, by omega⟩
      refine ⟨⟨upright.config, due, fun absurd => ?_, upright.ice, fun _ => asked⟩, ?_⟩
      · simp [fire] at absurd
        simp [absurd] at hidden
      · simp [fire, climbed, standing]
        rfl

-- The state of the watchdog against the calls that led to it.
structure Follows (episode : Episode) (dog : StallWatchdog) : Prop where
  running : episode.running = dog.running
  paused : episode.paused = dog.paused
  config : dog.config = .default
  upright : dog.running = true → dog.Upright
  climbed : dog.running = true → episode.actions = dog.climbed
  climbs : episode.actions <+: ladder

theorem follows_new : Follows .idle (new .default) where
  running := rfl
  paused := rfl
  config := rfl
  upright absurd := by simp [new] at absurd
  climbed absurd := by simp [new] at absurd
  climbs := List.nil_prefix

theorem upright_reset (dog : StallWatchdog) (config : dog.config = .default) :
    dog.resetEpisode.Upright ∧ dog.resetEpisode.climbed = [] :=
  ⟨⟨config, Nat.zero_le 3, fun _ => ⟨rfl, rfl, rfl⟩, nofun, nofun⟩, rfl⟩

variable {episode : Episode}

theorem Follows.resume (follows : Follows episode dog) (nowMs : Nat) :
    Follows { episode with paused := false } (dog.resume nowMs) := by
  unfold StallWatchdog.resume
  split_ifs with paused
  · refine ⟨follows.running, rfl, follows.config, fun running => ?_, follows.climbed,
      follows.climbs⟩
    obtain ⟨config, attempts, shown, ice, reconnect⟩ := follows.upright running
    exact ⟨config, attempts, shown, ice, reconnect⟩
  · exact ⟨follows.running, (by simpa using paused), follows.config, follows.upright,
      follows.climbed, follows.climbs⟩

theorem Follows.frameReceived (follows : Follows episode dog) (nowMs : Nat) :
    Follows (episode.next (.frameReceived nowMs, (dog.frameReceived nowMs).2))
      (dog.frameReceived nowMs).1 := by
  by_cases running : dog.running
  · obtain ⟨upright, none_yet⟩ := upright_reset { dog with lastFrameMs := nowMs }
      follows.config
    have started : episode.running = true := follows.running.trans running
    rw [StallWatchdog.frameReceived, if_neg (by simp [running]), Episode.next, if_pos started]
    exact ⟨follows.running, follows.paused, follows.config, fun _ => upright,
      fun _ => none_yet.symm, List.nil_prefix⟩
  · have stopped : episode.running = false := follows.running.trans (by simpa using running)
    simpa [Episode.next, stopped, StallWatchdog.frameReceived, running] using follows

theorem Follows.tick (follows : Follows episode dog) (nowMs : Nat) :
    Follows (episode.next (.tick nowMs, (dog.tick nowMs).2)) (dog.tick nowMs).1 := by
  have same : (dog.tick nowMs).1.running = dog.running ∧ (dog.tick nowMs).1.paused = dog.paused ∧
      (dog.tick nowMs).1.config = dog.config := by
    unfold StallWatchdog.tick
    split_ifs
    · exact ⟨rfl, rfl, rfl⟩
    · cases dog.nextRung (nowMs - dog.lastFrameMs) with
      | none => exact ⟨rfl, rfl, rfl⟩
      | some rung => cases rung <;> exact ⟨rfl, rfl, rfl⟩
  obtain ⟨running, paused, config⟩ := same
  have climbing (live : dog.running = true) :=
    (follows.upright live).tick nowMs
  refine ⟨running.symm ▸ follows.running, paused.symm ▸ follows.paused,
    config.trans follows.config, fun live => ?_, fun live => ?_, ?_⟩
  · exact (climbing (running ▸ live)).1
  · rw [(climbing (running ▸ live)).2, ← follows.climbed (running ▸ live)]
    rfl
  · cases live : dog.running with
    | true =>
      have climbs := (climbing live).1.climbed_ladder
      rwa [(climbing live).2, ← follows.climbed live] at climbs
    | false => simpa [Episode.next, StallWatchdog.tick, live] using follows.climbs

theorem Follows.call (follows : Follows episode dog) (input : WatchdogCall) :
    Follows (episode.next (input, (dog.call input).2)) (dog.call input).1 := by
  cases input with
  | start nowMs =>
    obtain ⟨upright, none_yet⟩ := upright_reset
      { dog with running := true, paused := false, lastFrameMs := nowMs } follows.config
    exact ⟨rfl, rfl, follows.config, fun _ => upright, fun _ => none_yet.symm, List.nil_prefix⟩
  | stop => exact ⟨rfl, follows.paused, follows.config, nofun, nofun, follows.climbs⟩
  | pause =>
    refine ⟨follows.running, rfl, follows.config, fun running => ?_, follows.climbed,
      follows.climbs⟩
    obtain ⟨config, attempts, shown, ice, reconnect⟩ := follows.upright running
    exact ⟨config, attempts, shown, ice, reconnect⟩
  | resume nowMs => exact follows.resume nowMs
  | frameReceived nowMs => exact follows.frameReceived nowMs
  | tick nowMs => exact follows.tick nowMs

theorem tick_live {nowMs : Nat} {action : WatchdogAction} (told : (dog.tick nowMs).2 = some action) :
    dog.running = true ∧ dog.paused = false := by
  unfold StallWatchdog.tick at told
  split_ifs at told with silent
  simp only [Bool.or_eq_true, not_or, Bool.not_eq_true, Bool.not_eq_false'] at silent
  exact silent.1

theorem run_follows (calls : List WatchdogCall) :
    Follows (Episode.after (run step (new .default) calls).2) (run step (new .default) calls).1 ∧
      Runs.Emissions Silent (run step (new .default) calls).2 := by
  refine Runs.run_invariant_of_forall step
    (fun history dog => Follows (Episode.after history) dog ∧ Runs.Emissions Silent history)
    ?_ [] (new .default) calls ⟨follows_new, Runs.emissions_nil Silent⟩
  intro history dog input follows
  refine ⟨?_, follows.2.concat fun nowMs action told => ?_⟩
  · rw [StallWatchdog.step, Episode.after_append_singleton]
    exact follows.1.call input
  · obtain ⟨rfl, answer⟩ := Prod.mk.inj told
    obtain ⟨running, paused⟩ := tick_live answer
    exact ⟨follows.1.running.trans running, follows.1.paused.trans paused⟩

end StallWatchdog

end Receive

section Lockstep

-- The two watchdogs hold the same values.
structure Lockstep (web : Web.StallWatchdog) (dog : StallWatchdog) : Prop where
  configs : web.config = .default ∧ dog.config = .default
  running : web.running = dog.running
  paused : web.paused = dog.paused
  lastFrameMs : web.lastFrameMs = dog.lastFrameMs
  stallShown : web.stallShown = dog.stallShown
  idrAttempts : web.idrAttempts = dog.idrAttempts
  iceRequested : web.iceRequested = dog.iceRequested
  reconnectRequested : web.reconnectRequested = dog.reconnectRequested

namespace Lockstep

variable {web : Web.StallWatchdog} {dog : StallWatchdog}

/-- Every threshold is positive, so that a negative and a saturated difference fire alike. -/
theorem nextRung (lockstep : Lockstep web dog) (nowMs : Nat) :
    web.nextRung (nowMs - web.lastFrameMs) = dog.nextRung (nowMs - dog.lastFrameMs) := by
  have reached (threshold : Nat) (positive : 0 < threshold) :
      (nowMs - dog.lastFrameMs : Int) ≥ threshold ↔ nowMs - dog.lastFrameMs ≥ threshold := by
    omega
  unfold Web.StallWatchdog.nextRung StallWatchdog.nextRung
  simp only [lockstep.configs, lockstep.lastFrameMs, lockstep.stallShown, lockstep.idrAttempts,
    lockstep.iceRequested, WatchdogConfig.default]
  have idr : (nowMs - dog.lastFrameMs : Int) ≥
      ((2000 : Nat) : Int) + (dog.idrAttempts : Int) * ((2000 : Nat) : Int) ↔
      nowMs - dog.lastFrameMs ≥ 2000 + dog.idrAttempts * 2000 := by
    omega
  simp only [reached 1000 (by omega), idr, reached 10000 (by omega), reached 20000 (by omega)]

theorem fire (lockstep : Lockstep web dog) (rung : Rung) :
    Lockstep (web.fire rung).1 (dog.fire rung).1 ∧ (web.fire rung).2 = [(dog.fire rung).2] := by
  obtain ⟨configs, running, paused, lastFrameMs, shown, attempts, ice, reconnect⟩ := lockstep
  cases rung with
  | stall => exact ⟨⟨configs, running, paused, lastFrameMs, rfl, attempts, ice, reconnect⟩, rfl⟩
  | idr =>
    refine ⟨⟨configs, running, paused, lastFrameMs, shown, congrArg (· + 1) attempts, ice,
      reconnect⟩, ?_⟩
    simp only [Web.StallWatchdog.fire, StallWatchdog.fire, attempts]
  | ice => exact ⟨⟨configs, running, paused, lastFrameMs, shown, attempts, rfl, reconnect⟩, rfl⟩
  | reconnect => exact ⟨⟨configs, running, paused, lastFrameMs, shown, attempts, ice, rfl⟩, rfl⟩

theorem tick (lockstep : Lockstep web dog) (nowMs : Nat) :
    Lockstep (web.tick nowMs).1 (dog.tick nowMs).1 ∧
      (web.tick nowMs).2 = (dog.tick nowMs).2.toList := by
  unfold Web.StallWatchdog.tick StallWatchdog.tick
  rw [lockstep.running, lockstep.paused, lockstep.reconnectRequested, lockstep.nextRung nowMs]
  split_ifs
  · exact ⟨lockstep, rfl⟩
  · cases dog.nextRung (nowMs - dog.lastFrameMs) with
    | none => exact ⟨lockstep, rfl⟩
    | some rung => exact lockstep.fire rung

theorem frameReceived (lockstep : Lockstep web dog) (nowMs : Nat) :
    Lockstep (web.frameReceived nowMs).1 (dog.frameReceived nowMs).1 ∧
      (web.frameReceived nowMs).2 = (dog.frameReceived nowMs).2.toList := by
  have stalled : (max 0 ((nowMs : Int) - dog.lastFrameMs)).toNat = nowMs - dog.lastFrameMs := by
    omega
  have same : (web.frameReceived nowMs).2 = (dog.frameReceived nowMs).2.toList := by
    unfold Web.StallWatchdog.frameReceived StallWatchdog.frameReceived
    rw [lockstep.running, lockstep.stallShown, lockstep.lastFrameMs, stalled]
    split_ifs <;> rfl
  refine ⟨?_, same⟩
  unfold Web.StallWatchdog.frameReceived StallWatchdog.frameReceived
  have running := lockstep.running
  by_cases live : dog.running
  · rw [if_neg (show ¬(!web.running) = true by simp [running.trans live]),
      if_neg (show ¬(!dog.running) = true by simp [live])]
    exact ⟨lockstep.configs, running, lockstep.paused, rfl, rfl, rfl, rfl, rfl⟩
  · simpa [running, live] using lockstep

theorem call (lockstep : Lockstep web dog) (input : WatchdogCall) :
    Lockstep (web.call input).1 (dog.call input).1 ∧
      (web.call input).2 = (dog.call input).2.toList := by
  cases input with
  | start nowMs => exact ⟨⟨lockstep.configs, rfl, rfl, rfl, rfl, rfl, rfl, rfl⟩, rfl⟩
  | stop =>
    exact ⟨⟨lockstep.configs, rfl, lockstep.paused, lockstep.lastFrameMs, rfl,
      lockstep.idrAttempts, lockstep.iceRequested, lockstep.reconnectRequested⟩, rfl⟩
  | pause =>
    exact ⟨⟨lockstep.configs, lockstep.running, rfl, lockstep.lastFrameMs, lockstep.stallShown,
      lockstep.idrAttempts, lockstep.iceRequested, lockstep.reconnectRequested⟩, rfl⟩
  | resume nowMs =>
    refine ⟨?_, rfl⟩
    change Lockstep (web.resume nowMs) (dog.resume nowMs)
    unfold Web.StallWatchdog.resume StallWatchdog.resume
    rw [lockstep.paused]
    split_ifs
    · exact ⟨lockstep.configs, lockstep.running, rfl, rfl, lockstep.stallShown,
        lockstep.idrAttempts, lockstep.iceRequested, lockstep.reconnectRequested⟩
    · exact lockstep
  | frameReceived nowMs => exact lockstep.frameReceived nowMs
  | tick nowMs => exact lockstep.tick nowMs

theorem run (lockstep : Lockstep web dog) (calls : List WatchdogCall) :
    (Runs.run Web.StallWatchdog.step web calls).2 =
      (Runs.run StallWatchdog.step dog calls).2.map fun entry => (entry.1, entry.2.toList) := by
  induction calls generalizing web dog with
  | nil => rfl
  | cons input rest ih =>
    obtain ⟨next, same⟩ := lockstep.call input
    simp only [Runs.run, Web.StallWatchdog.step, StallWatchdog.step, List.map_append, ih next, same]
    rfl

end Lockstep

theorem lockstep_new : Lockstep (.new .default) (.new .default) :=
  ⟨⟨rfl, rfl⟩, rfl, rfl, rfl, rfl, rfl, rfl, rfl⟩

end Lockstep

section Stages

def decodeLadder : List WatchdogAction := [.decodeStall 1, .decodeStall 2, .reconnect]

def presentLadder : List WatchdogAction :=
  [.presentStall 1, .presentStall 2, .presentStall 3, .presentStall 4, .reconnect]

-- The action a call raised for a stage.
def SupervisorReturn.raisedFor (stage : WatchdogStage) : SupervisorReturn → List WatchdogAction
  | .ticked (some (raised, action, _)) => if raised = stage then [action] else []
  | .ticked none | .nothing | .received _ => []

-- The actions of the decode stage since its last progress, and those of the present stage.
def decodeActions (actions : List WatchdogAction) :
    SupervisorCall × SupervisorReturn → List WatchdogAction
  | (.decodeProgress _, _) => []
  | (_, returned) => actions ++ returned.raisedFor .decode

def presentActions (actions : List WatchdogAction) :
    SupervisorCall × SupervisorReturn → List WatchdogAction
  | (.presentProgress _, _) => []
  | (_, returned) => actions ++ returned.raisedFor .present

-- The rungs that a clock says were climbed.
def StageClock.climbed (clock : StageClock) (action : StageRung → WatchdogAction) :
    List WatchdogAction :=
  (List.range clock.attempts).map (fun number => action (.attempt (number + 1))) ++
    (if clock.exhausted then [action .reconnect] else [])

-- The ladder of a stage with `maxAttempts` attempts.
def stageLadder (action : StageRung → WatchdogAction) (maxAttempts : Nat) : List WatchdogAction :=
  (List.range maxAttempts).map (fun number => action (.attempt (number + 1))) ++
    [action .reconnect]

-- A clock against the actions of its stage since the last progress. Out of arms it climbs no rung.
structure StageFollows (action : StageRung → WatchdogAction) (maxAttempts : Nat)
    (actions : List WatchdogAction) (clock : StageClock) : Prop where
  armed : clock.armed = true → clock.running = true
  attempts : clock.attempts ≤ maxAttempts
  exhausted : clock.exhausted = true → clock.attempts = maxAttempts
  climbed : clock.armed = true → actions = clock.climbed action
  climbs : actions <+: stageLadder action maxAttempts

namespace StageFollows

variable {action : StageRung → WatchdogAction} {maxAttempts : Nat} {actions : List WatchdogAction}
  {clock : StageClock}

theorem default : StageFollows action maxAttempts [] .default :=
  ⟨nofun, Nat.zero_le _, nofun, fun _ => rfl, List.nil_prefix⟩

-- What a call that raises nothing for the stage adds to its actions.
theorem idle (follows : StageFollows action maxAttempts actions clock) :
    StageFollows action maxAttempts (actions ++ []) clock := by
  rwa [List.append_nil]

theorem start (follows : StageFollows action maxAttempts actions clock) :
    StageFollows action maxAttempts actions clock.start :=
  ⟨nofun, Nat.zero_le _, nofun, nofun, follows.climbs⟩

theorem stop (follows : StageFollows action maxAttempts actions clock) :
    StageFollows action maxAttempts actions clock.stop :=
  ⟨nofun, follows.attempts, follows.exhausted, nofun, follows.climbs⟩

theorem pause (follows : StageFollows action maxAttempts actions clock) :
    StageFollows action maxAttempts actions clock.pause :=
  ⟨follows.armed, follows.attempts, follows.exhausted, follows.climbed, follows.climbs⟩

theorem resume (follows : StageFollows action maxAttempts actions clock) (nowMs : Nat) :
    StageFollows action maxAttempts actions (clock.resume nowMs) := by
  unfold StageClock.resume
  split_ifs
  · exact ⟨follows.armed, follows.attempts, follows.exhausted, follows.climbed, follows.climbs⟩
  · exact follows

theorem progress (follows : StageFollows action maxAttempts actions clock) (nowMs : Nat) :
    StageFollows action maxAttempts [] (clock.progress nowMs) := by
  unfold StageClock.progress
  split_ifs with stopped
  · have unarmed : ¬clock.armed = true := fun armed => by simp [follows.armed armed] at stopped
    exact ⟨follows.armed, follows.attempts, follows.exhausted, fun armed => absurd armed unarmed,
      List.nil_prefix⟩
  · exact ⟨fun _ => by simpa using stopped, Nat.zero_le _, nofun, fun _ => rfl, List.nil_prefix⟩

theorem climbed_ladder {clock : StageClock} (attempts : clock.attempts ≤ maxAttempts)
    (exhausted : clock.exhausted = true → clock.attempts = maxAttempts) :
    clock.climbed action <+: stageLadder action maxAttempts := by
  rw [StageClock.climbed, stageLadder]
  split_ifs with all
  · rw [exhausted all]
  · obtain ⟨left, rfl⟩ := Nat.exists_eq_add_of_le attempts
    rw [List.append_nil, List.range_add, List.map_append, List.append_assoc]
    exact List.prefix_append _ _

theorem tick (follows : StageFollows action maxAttempts actions clock)
    (nowMs stallMs retryMs : Nat) :
    StageFollows action maxAttempts
      (actions ++ ((clock.tick nowMs stallMs retryMs maxAttempts).2.map action).toList)
      (clock.tick nowMs stallMs retryMs maxAttempts).1 := by
  unfold StageClock.tick
  split_ifs with silent more due last
  · simpa using follows
  · simp only [Bool.or_eq_true, Bool.not_eq_true', not_or, Bool.not_eq_false,
      Bool.not_eq_true] at silent
    obtain ⟨⟨⟨running, -⟩, armed⟩, standing⟩ := silent
    have climbed : actions ++ [action (.attempt (clock.attempts + 1))] =
        { clock with attempts := clock.attempts + 1 }.climbed action := by
      rw [follows.climbed armed]
      simp [StageClock.climbed, standing, List.range_succ]
    refine ⟨follows.armed, more, fun all => absurd all (by simp [standing]), fun _ => climbed, ?_⟩
    rw [Option.map_some, Option.toList_some, climbed]
    exact climbed_ladder more fun all => absurd all (by simp [standing])
  · simpa using follows
  · simp only [Bool.or_eq_true, Bool.not_eq_true', not_or, Bool.not_eq_false,
      Bool.not_eq_true] at silent
    obtain ⟨⟨⟨running, -⟩, armed⟩, standing⟩ := silent
    have all : clock.attempts = maxAttempts := Nat.le_antisymm follows.attempts (by omega)
    have climbed : actions ++ [action .reconnect] =
        { clock with exhausted := true }.climbed action := by
      rw [follows.climbed armed]
      simp [StageClock.climbed, standing]
    refine ⟨follows.armed, follows.attempts, fun _ => all, fun _ => climbed, ?_⟩
    rw [Option.map_some, Option.toList_some, climbed]
    exact climbed_ladder follows.attempts fun _ => all
  · simpa using follows

end StageFollows

namespace WatchdogSupervisor

-- Both downstream clocks against the history of calls.
structure Follows (history : List (SupervisorCall × SupervisorReturn)) (dog : WatchdogSupervisor) :
    Prop where
  config : dog.config = .default
  decode : StageFollows StageRung.decodeAction 2 (history.foldl decodeActions []) dog.decode
  present : StageFollows StageRung.presentAction 4 (history.foldl presentActions []) dog.present

theorem Follows.call {history : List (SupervisorCall × SupervisorReturn)}
    {dog : WatchdogSupervisor} (follows : Follows history dog) (input : SupervisorCall) :
    Follows (history ++ [(input, (dog.call input).2)]) (dog.call input).1 := by
  obtain ⟨config, decode, present⟩ := follows
  suffices both : StageFollows StageRung.decodeAction 2
        (decodeActions (history.foldl decodeActions []) (input, (dog.call input).2))
        (dog.call input).1.decode ∧
      StageFollows StageRung.presentAction 4
        (presentActions (history.foldl presentActions []) (input, (dog.call input).2))
        (dog.call input).1.present ∧ (dog.call input).1.config = .default by
    refine ⟨both.2.2, ?_, ?_⟩
    all_goals rw [List.foldl_append]
    · exact both.1
    · exact both.2.1
  generalize history.foldl decodeActions [] = decoded at *
  generalize history.foldl presentActions [] = presented at *
  cases input with
  | start nowMs generation => exact ⟨decode.start.idle, present.start.idle, config⟩
  | stop => exact ⟨decode.stop.idle, present.stop.idle, config⟩
  | pause => exact ⟨decode.pause.idle, present.pause.idle, config⟩
  | resume nowMs => exact ⟨(decode.resume nowMs).idle, (present.resume nowMs).idle, config⟩
  | frameReceived nowMs => exact ⟨decode.idle, present.idle, config⟩
  | decodeProgress nowMs => exact ⟨decode.progress nowMs, present.idle, config⟩
  | presentProgress nowMs => exact ⟨decode.idle, present.progress nowMs, config⟩
  | tick nowMs =>
    have decoded := decode.tick nowMs 2000 2000
    have presented := present.tick nowMs 2000 2000
    have tickDecode : dog.tickDecode nowMs = dog.decode.tick nowMs 2000 2000 2 := by
      rw [WatchdogSupervisor.tickDecode, config]
      rfl
    have tickPresent : dog.tickPresent nowMs = dog.present.tick nowMs 2000 2000 4 := by
      rw [WatchdogSupervisor.tickPresent, config]
      rfl
    rw [← tickDecode] at decoded
    rw [← tickPresent] at presented
    simp only [decodeActions, presentActions, WatchdogSupervisor.call, WatchdogSupervisor.tick]
    cases received : (dog.receive.tick nowMs).2 with
    | some action =>
      exact ⟨decode.idle, present.idle, config⟩
    | none =>
      cases fired : (dog.tickDecode nowMs).2 with
      | some rung =>
        exact ⟨by simpa [SupervisorReturn.raisedFor, fired] using decoded,
          present.idle, config⟩
      | none =>
        cases shown : (dog.tickPresent nowMs).2 with
        | some rung =>
          exact ⟨by simpa [SupervisorReturn.raisedFor, fired] using decoded,
            by simpa [SupervisorReturn.raisedFor, shown] using presented, config⟩
        | none =>
          exact ⟨by simpa [SupervisorReturn.raisedFor, fired] using decoded,
            by simpa [SupervisorReturn.raisedFor, shown] using presented, config⟩

theorem run_follows_stages (calls : List SupervisorCall) :
    Follows (run step (new .default) calls).2 (run step (new .default) calls).1 :=
  Runs.run_invariant_of_forall step Follows (fun _ _ input follows => follows.call input) []
    (new .default) calls ⟨rfl, .default, .default⟩

end WatchdogSupervisor

end Stages

/-- With the default configuration, in every order of calls at any times: the rungs a watchdog
climbs since the last start or counted frame are the ladder from its foot, without gap or
repetition; it is silent while stopped or paused; the browser's watchdog returns the same at
every call; and the downstream stages of the supervisor climb their ladders in the same way. -/
theorem watchdogs_climb_in_order :
    (∀ calls : List WatchdogCall,
      let history := (run StallWatchdog.step (.new .default) calls).2
      (Episode.after history).actions <+: ladder ∧ Runs.Emissions Silent history ∧
        (run Web.StallWatchdog.step (.new .default) calls).2 =
          history.map fun entry => (entry.1, entry.2.toList)) ∧
    ∀ calls : List SupervisorCall,
      let history := (run WatchdogSupervisor.step (.new .default) calls).2
      history.foldl decodeActions [] <+: decodeLadder ∧
        history.foldl presentActions [] <+: presentLadder := by
  constructor
  · intro calls
    obtain ⟨follows, silent⟩ := StallWatchdog.run_follows calls
    exact ⟨follows.climbs, silent, lockstep_new.run calls⟩
  · intro calls
    have follows := WatchdogSupervisor.run_follows_stages calls
    exact ⟨follows.decode.climbs, follows.present.climbs⟩

end BetterParsec
