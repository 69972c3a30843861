import BetterParsec.Library.Runs

set_option autoImplicit false
set_option linter.all false

/-!
# The stall watchdogs

`StallWatchdog` and `WatchdogSupervisor` of `client-transport/src/watchdog.rs`,
and the `StallWatchdog` of `web/stream/session_ux.ts`. They hold no timer: the
caller passes the time of each call in milliseconds, which need not be monotone.
Below 2^53 these times are exact in both languages.
-/

namespace BetterParsec

inductive WatchdogAction where
  | stall
  | recovered (stalledMs : Nat)
  | requestIdr (attempt : Nat)
  | restartIce
  | reconnect
  | decodeStall (attempt : Nat)
  | presentStall (attempt : Nat)
  deriving DecidableEq

structure WatchdogConfig where
  stallIndicatorMs : Nat
  idrFirstMs : Nat
  idrRetryMs : Nat
  idrMaxAttempts : Nat
  iceRestartMs : Nat
  reconnectMs : Nat
  decodeStallMs : Nat
  decodeRetryMs : Nat
  decodeMaxAttempts : Nat
  presentStallMs : Nat
  presentRetryMs : Nat
  presentMaxAttempts : Nat
  deriving DecidableEq

def WatchdogConfig.default : WatchdogConfig where
  stallIndicatorMs := 1000
  idrFirstMs := 2000
  idrRetryMs := 2000
  idrMaxAttempts := 3
  iceRestartMs := 10000
  reconnectMs := 20000
  decodeStallMs := 2000
  decodeRetryMs := 2000
  decodeMaxAttempts := 2
  presentStallMs := 2000
  presentRetryMs := 2000
  presentMaxAttempts := 4

inductive Rung where
  | stall
  | idr
  | ice
  | reconnect
  deriving DecidableEq

structure StallWatchdog where
  config : WatchdogConfig
  running : Bool
  paused : Bool
  lastFrameMs : Nat
  stallShown : Bool
  idrAttempts : Nat
  iceRequested : Bool
  reconnectRequested : Bool
  deriving DecidableEq

inductive WatchdogCall where
  | start (nowMs : Nat)
  | stop
  | pause
  | resume (nowMs : Nat)
  | frameReceived (nowMs : Nat)
  | tick (nowMs : Nat)
  deriving DecidableEq

namespace StallWatchdog

def new (config : WatchdogConfig) : StallWatchdog :=
  ⟨config, false, false, 0, false, 0, false, false⟩

def resetEpisode (dog : StallWatchdog) : StallWatchdog :=
  { dog with
    stallShown := false, idrAttempts := 0, iceRequested := false, reconnectRequested := false }

def start (dog : StallWatchdog) (nowMs : Nat) : StallWatchdog :=
  { dog with running := true, paused := false, lastFrameMs := nowMs }.resetEpisode

def stop (dog : StallWatchdog) : StallWatchdog :=
  { dog with running := false, stallShown := false }

def pause (dog : StallWatchdog) : StallWatchdog := { dog with paused := true }

def resume (dog : StallWatchdog) (nowMs : Nat) : StallWatchdog :=
  if dog.paused then { dog with paused := false, lastFrameMs := nowMs } else dog

def frameReceived (dog : StallWatchdog) (nowMs : Nat) : StallWatchdog × Option WatchdogAction :=
  if !dog.running then (dog, none)
  else
    ({ dog with lastFrameMs := nowMs }.resetEpisode,
      if dog.stallShown then some (.recovered (nowMs - dog.lastFrameMs)) else none)

def nextRung (dog : StallWatchdog) (elapsedMs : Nat) : Option Rung :=
  let c := dog.config
  if !dog.stallShown then
    if elapsedMs ≥ c.stallIndicatorMs then some .stall else none
  else if dog.idrAttempts < c.idrMaxAttempts ∧
      elapsedMs ≥ c.idrFirstMs + dog.idrAttempts * c.idrRetryMs then some .idr
  else if !dog.iceRequested ∧ elapsedMs ≥ c.iceRestartMs then some .ice
  else if elapsedMs ≥ c.reconnectMs then some .reconnect
  else none

def fire (dog : StallWatchdog) : Rung → StallWatchdog × WatchdogAction
  | .stall => ({ dog with stallShown := true }, .stall)
  | .idr => ({ dog with idrAttempts := dog.idrAttempts + 1 }, .requestIdr (dog.idrAttempts + 1))
  | .ice => ({ dog with iceRequested := true }, .restartIce)
  | .reconnect => ({ dog with reconnectRequested := true }, .reconnect)

-- `saturating_sub`: a time before the last frame counts as no time elapsed.
def tick (dog : StallWatchdog) (nowMs : Nat) : StallWatchdog × Option WatchdogAction :=
  if !dog.running || dog.paused || dog.reconnectRequested then (dog, none)
  else
    match dog.nextRung (nowMs - dog.lastFrameMs) with
    | none => (dog, none)
    | some rung => ((dog.fire rung).1, some (dog.fire rung).2)

def call (dog : StallWatchdog) : WatchdogCall → StallWatchdog × Option WatchdogAction
  | .start nowMs => (dog.start nowMs, none)
  | .stop => (dog.stop, none)
  | .pause => (dog.pause, none)
  | .resume nowMs => (dog.resume nowMs, none)
  | .frameReceived nowMs => dog.frameReceived nowMs
  | .tick nowMs => dog.tick nowMs

-- A call together with what it returned.
def step (dog : StallWatchdog) (input : WatchdogCall) :
    StallWatchdog × List (WatchdogCall × Option WatchdogAction) :=
  ((dog.call input).1, [(input, (dog.call input).2)])

end StallWatchdog

namespace Web

-- The watchdog of the browser. Its numbers are signed, and it returns arrays.
structure StallWatchdog where
  config : WatchdogConfig
  running : Bool
  paused : Bool
  lastFrameMs : Int
  stallShown : Bool
  idrAttempts : Nat
  iceRequested : Bool
  reconnectRequested : Bool

namespace StallWatchdog

def new (config : WatchdogConfig) : StallWatchdog :=
  ⟨config, false, false, 0, false, 0, false, false⟩

def resetEpisode (dog : StallWatchdog) : StallWatchdog :=
  { dog with
    stallShown := false, idrAttempts := 0, iceRequested := false, reconnectRequested := false }

def start (dog : StallWatchdog) (nowMs : Int) : StallWatchdog :=
  { dog with running := true, paused := false, lastFrameMs := nowMs }.resetEpisode

def stop (dog : StallWatchdog) : StallWatchdog :=
  { dog with running := false, stallShown := false }

def pause (dog : StallWatchdog) : StallWatchdog := { dog with paused := true }

def resume (dog : StallWatchdog) (nowMs : Int) : StallWatchdog :=
  if dog.paused then { dog with paused := false, lastFrameMs := nowMs } else dog

def frameReceived (dog : StallWatchdog) (nowMs : Int) : StallWatchdog × List WatchdogAction :=
  if !dog.running then (dog, [])
  else
    ({ dog with lastFrameMs := nowMs }.resetEpisode,
      if dog.stallShown then [.recovered (max 0 (nowMs - dog.lastFrameMs)).toNat] else [])

def nextRung (dog : StallWatchdog) (elapsedMs : Int) : Option Rung :=
  let c := dog.config
  if !dog.stallShown then
    if elapsedMs ≥ c.stallIndicatorMs then some .stall else none
  else if dog.idrAttempts < c.idrMaxAttempts ∧
      elapsedMs ≥ c.idrFirstMs + dog.idrAttempts * c.idrRetryMs then some .idr
  else if !dog.iceRequested ∧ elapsedMs ≥ c.iceRestartMs then some .ice
  else if elapsedMs ≥ c.reconnectMs then some .reconnect
  else none

def fire (dog : StallWatchdog) : Rung → StallWatchdog × List WatchdogAction
  | .stall => ({ dog with stallShown := true }, [.stall])
  | .idr => ({ dog with idrAttempts := dog.idrAttempts + 1 }, [.requestIdr (dog.idrAttempts + 1)])
  | .ice => ({ dog with iceRequested := true }, [.restartIce])
  | .reconnect => ({ dog with reconnectRequested := true }, [.reconnect])

def tick (dog : StallWatchdog) (nowMs : Int) : StallWatchdog × List WatchdogAction :=
  if !dog.running || dog.paused || dog.reconnectRequested then (dog, [])
  else
    match dog.nextRung (nowMs - dog.lastFrameMs) with
    | none => (dog, [])
    | some rung => dog.fire rung

def call (dog : StallWatchdog) : WatchdogCall → StallWatchdog × List WatchdogAction
  | .start nowMs => (dog.start nowMs, [])
  | .stop => (dog.stop, [])
  | .pause => (dog.pause, [])
  | .resume nowMs => (dog.resume nowMs, [])
  | .frameReceived nowMs => dog.frameReceived nowMs
  | .tick nowMs => dog.tick nowMs

def step (dog : StallWatchdog) (input : WatchdogCall) :
    StallWatchdog × List (WatchdogCall × List WatchdogAction) :=
  ((dog.call input).1, [(input, (dog.call input).2)])

end StallWatchdog

end Web

inductive WatchdogStage where
  | receive
  | decode
  | present
  deriving DecidableEq

inductive StageRung where
  | attempt (number : Nat)
  | reconnect
  deriving DecidableEq

structure StageClock where
  running : Bool
  paused : Bool
  armed : Bool
  lastProgressMs : Nat
  attempts : Nat
  exhausted : Bool
  deriving DecidableEq

namespace StageClock

def default : StageClock := ⟨false, false, false, 0, 0, false⟩

def start (_ : StageClock) : StageClock := ⟨true, false, false, 0, 0, false⟩

def stop (clock : StageClock) : StageClock := { clock with running := false, armed := false }

def pause (clock : StageClock) : StageClock := { clock with paused := true }

def resume (clock : StageClock) (nowMs : Nat) : StageClock :=
  if clock.paused then { clock with paused := false, lastProgressMs := nowMs } else clock

def progress (clock : StageClock) (nowMs : Nat) : StageClock :=
  if !clock.running then clock
  else { clock with armed := true, lastProgressMs := nowMs, attempts := 0, exhausted := false }

def tick (clock : StageClock) (nowMs stallMs retryMs maxAttempts : Nat) :
    StageClock × Option StageRung :=
  if !clock.running || clock.paused || !clock.armed || clock.exhausted then (clock, none)
  else if clock.attempts < maxAttempts then
    if nowMs - clock.lastProgressMs ≥ stallMs + clock.attempts * retryMs then
      ({ clock with attempts := clock.attempts + 1 }, some (.attempt (clock.attempts + 1)))
    else (clock, none)
  else if nowMs - clock.lastProgressMs ≥ stallMs + maxAttempts * retryMs then
    ({ clock with exhausted := true }, some .reconnect)
  else (clock, none)

end StageClock

structure WatchdogSupervisor where
  config : WatchdogConfig
  generation : UInt64
  receive : StallWatchdog
  decode : StageClock
  present : StageClock
  deriving DecidableEq

inductive SupervisorCall where
  | start (nowMs : Nat) (generation : UInt64)
  | stop
  | pause
  | resume (nowMs : Nat)
  | frameReceived (nowMs : Nat)
  | decodeProgress (nowMs : Nat)
  | presentProgress (nowMs : Nat)
  | tick (nowMs : Nat)
  deriving DecidableEq

-- What a call returns; `start` returns its own argument, the others but these two nothing.
inductive SupervisorReturn where
  | nothing
  | received (action : Option WatchdogAction)
  | ticked (raised : Option (WatchdogStage × WatchdogAction × UInt64))
  deriving DecidableEq

def StageRung.decodeAction : StageRung → WatchdogAction
  | .attempt number => .decodeStall number
  | .reconnect => .reconnect

def StageRung.presentAction : StageRung → WatchdogAction
  | .attempt number => .presentStall number
  | .reconnect => .reconnect

namespace WatchdogSupervisor

def new (config : WatchdogConfig) : WatchdogSupervisor :=
  ⟨config, 0, .new config, .default, .default⟩

def start (dog : WatchdogSupervisor) (nowMs : Nat) (generation : UInt64) : WatchdogSupervisor :=
  { dog with
    generation := generation
    receive := dog.receive.start nowMs
    decode := dog.decode.start
    present := dog.present.start }

def stop (dog : WatchdogSupervisor) : WatchdogSupervisor :=
  { dog with receive := dog.receive.stop, decode := dog.decode.stop, present := dog.present.stop }

def pause (dog : WatchdogSupervisor) : WatchdogSupervisor :=
  { dog with
    receive := dog.receive.pause, decode := dog.decode.pause, present := dog.present.pause }

def resume (dog : WatchdogSupervisor) (nowMs : Nat) : WatchdogSupervisor :=
  { dog with
    receive := dog.receive.resume nowMs
    decode := dog.decode.resume nowMs
    present := dog.present.resume nowMs }

def tickDecode (dog : WatchdogSupervisor) (nowMs : Nat) : StageClock × Option StageRung :=
  dog.decode.tick nowMs dog.config.decodeStallMs dog.config.decodeRetryMs
    dog.config.decodeMaxAttempts

def tickPresent (dog : WatchdogSupervisor) (nowMs : Nat) : StageClock × Option StageRung :=
  dog.present.tick nowMs dog.config.presentStallMs dog.config.presentRetryMs
    dog.config.presentMaxAttempts

-- The first stage that has something to do; the later ones are not ticked then.
def tick (dog : WatchdogSupervisor) (nowMs : Nat) :
    WatchdogSupervisor × Option (WatchdogStage × WatchdogAction × UInt64) :=
  let ticked := { dog with receive := (dog.receive.tick nowMs).1 }
  match (dog.receive.tick nowMs).2 with
  | some action => (ticked, some (.receive, action, dog.generation))
  | none =>
      let ticked := { ticked with decode := (dog.tickDecode nowMs).1 }
      match (dog.tickDecode nowMs).2 with
      | some rung => (ticked, some (.decode, rung.decodeAction, dog.generation))
      | none =>
          let ticked := { ticked with present := (dog.tickPresent nowMs).1 }
          match (dog.tickPresent nowMs).2 with
          | some rung => (ticked, some (.present, rung.presentAction, dog.generation))
          | none => (ticked, none)

def call (dog : WatchdogSupervisor) : SupervisorCall → WatchdogSupervisor × SupervisorReturn
  | .start nowMs generation => (dog.start nowMs generation, .nothing)
  | .stop => (dog.stop, .nothing)
  | .pause => (dog.pause, .nothing)
  | .resume nowMs => (dog.resume nowMs, .nothing)
  | .frameReceived nowMs =>
      ({ dog with receive := (dog.receive.frameReceived nowMs).1 },
        .received (dog.receive.frameReceived nowMs).2)
  | .decodeProgress nowMs => ({ dog with decode := dog.decode.progress nowMs }, .nothing)
  | .presentProgress nowMs => ({ dog with present := dog.present.progress nowMs }, .nothing)
  | .tick nowMs => ((dog.tick nowMs).1, .ticked (dog.tick nowMs).2)

def step (dog : WatchdogSupervisor) (input : SupervisorCall) :
    WatchdogSupervisor × List (SupervisorCall × SupervisorReturn) :=
  ((dog.call input).1, [(input, (dog.call input).2)])

end WatchdogSupervisor

end BetterParsec
