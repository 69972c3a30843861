import BetterParsec.Library.Assoc
import BetterParsec.Library.Runs

set_option autoImplicit false
set_option linter.all false

/-!
# Foundation supervisor

The supervisor of `supervisor.rs`. An operation is a sequence of critical
sections of one mutex; between two of them the thread spawns a child or reports
an event with the mutex free. A state holds the fields behind the mutex, the
children that are alive, and for each call in progress what it still has to do,
so that any number of threads may interleave. Times are in milliseconds.
-/

namespace BetterParsec

inductive SupervisorState where
  | stopped
  | starting
  | healthy
  | degraded
  | restarting
  | failed
  deriving DecidableEq

inductive SupervisorEvent where
  | spawned (pid : Nat)
  | terminal (pid : Nat) (exitCode : Option Int)
  | restartBudgetExhausted
  deriving DecidableEq

structure RestartBudget where
  maxRestarts : Nat
  window : Nat
  attempts : List Nat
  consecutive : Nat
  deriving DecidableEq

namespace RestartBudget

def new (maxRestarts window : Nat) : RestartBudget := ⟨maxRestarts, window, [], 0⟩

def prune (budget : RestartBudget) (now : Nat) : RestartBudget :=
  { budget with attempts := budget.attempts.dropWhile (fun front => now - front ≥ budget.window) }

def countInWindow (budget : RestartBudget) (now : Nat) : RestartBudget × Nat :=
  (budget.prune now, (budget.prune now).attempts.length)

def exhausted (budget : RestartBudget) (now : Nat) : Bool :=
  (budget.prune now).attempts.length ≥ budget.maxRestarts

-- The delay before the restart, or `none` when the window is full.
def recordAndCheck (budget : RestartBudget) (now : Nat) : RestartBudget × Option Nat :=
  if budget.exhausted now then (budget.prune now, none)
  else
    let consecutive := min (budget.consecutive + 1) (2 ^ 32 - 1)
    ({ budget.prune now with
        attempts := (budget.prune now).attempts ++ [now]
        consecutive := consecutive },
      some (100 <<< min (consecutive - 1) 6))

def noteStable (budget : RestartBudget) : RestartBudget := { budget with consecutive := 0 }

end RestartBudget

def stabilityWindow : Nat := 30000

structure Inner where
  state : SupervisorState
  child : Option Nat
  budget : RestartBudget
  lastError : Option String
  embeddedServerAlive : Bool
  restartNotBefore : Option Nat
  spawnedAt : Option Nat
  stableRecorded : Bool
  spawning : Bool
  deriving DecidableEq

def debugExitCode : Option Int → String
  | none => "None"
  | some code => "Some(" ++ toString code ++ ")"

def exitMessage (pid : Nat) (exitCode : Option Int) : String :=
  "foundation exited (pid " ++ toString pid ++ ", code " ++ debugExitCode exitCode ++ ")"

namespace Inner

def new (budget : RestartBudget) : Inner :=
  { state := .stopped
    child := none
    budget := budget
    lastError := none
    embeddedServerAlive := true
    restartNotBefore := none
    spawnedAt := none
    stableRecorded := false
    spawning := false }

def deriveUpState (inner : Inner) : SupervisorState :=
  if inner.embeddedServerAlive then .healthy else .degraded

-- A call that finds a child, or a spawn in flight, returns at once.
def occupied (inner : Inner) : Bool := inner.child.isSome || inner.spawning

def beginStart (inner : Inner) : Inner := { inner with spawning := true, state := .starting }

def installChild (inner : Inner) (pid now : Nat) : Inner :=
  { inner with
    spawning := false
    child := some pid
    lastError := none
    spawnedAt := some now
    stableRecorded := false
    state := inner.deriveUpState }

-- Another attempt within the budget, or the end.
def scheduleRestart (inner : Inner) (now : Nat) : Inner × List SupervisorEvent :=
  match inner.budget.recordAndCheck now with
  | (budget, some backoff) =>
      ({ inner with
          budget := budget
          state := .restarting
          restartNotBefore := some (now + backoff) }, [])
  | (budget, none) =>
      ({ inner with budget := budget, state := .failed }, [.restartBudgetExhausted])

def spawnFailed (inner : Inner) (error : String) (now : Nat) : Inner × List SupervisorEvent :=
  let noted := { inner with spawning := false, lastError := some error }
  if inner.state = .restarting then noted.scheduleRestart now
  else ({ noted with state := .failed }, [])

def commitSpawnResult (inner : Inner) (result : Except String Nat) (now : Nat) :
    Inner × List SupervisorEvent :=
  match result with
  | .ok pid => (inner.installChild pid now, [.spawned pid])
  | .error error => inner.spawnFailed error now

def noteEmbeddedServerAlive (inner : Inner) (alive : Bool) : Inner :=
  let noted := { inner with embeddedServerAlive := alive }
  if inner.child.isSome && (inner.state = .healthy || inner.state = .degraded) then
    { noted with state := noted.deriveUpState }
  else noted

def pollRunning (inner : Inner) (now : Nat) : Inner :=
  let stable := !inner.stableRecorded &&
    inner.spawnedAt.any (fun spawnedAt => now - spawnedAt ≥ stabilityWindow)
  { inner with
    budget := if stable then inner.budget.noteStable else inner.budget
    stableRecorded := inner.stableRecorded || stable
    state := inner.deriveUpState }

def reap (inner : Inner) (pid : Nat) (exitCode : Option Int) : Inner :=
  { inner with
    child := none
    spawnedAt := none
    lastError := some (exitMessage pid exitCode) }

def respawns (inner : Inner) (now : Nat) : Bool :=
  inner.child.isNone && inner.state = .restarting && !inner.spawning &&
    inner.restartNotBefore.all (fun due => now ≥ due)

def beginRespawn (inner : Inner) : Inner := { inner with spawning := true }

-- The child was stopped, killed if it did not go by itself, and is no longer tracked.
def dropChild (inner : Inner) : Inner := { inner with child := none, spawnedAt := none }

def finishStop (inner : Inner) : Inner := { inner with state := .stopped, restartNotBefore := none }

def countRestarts (inner : Inner) (now : Nat) : Inner :=
  { inner with budget := (inner.budget.countInWindow now).1 }

end Inner

-- What a call still has to do once it has released the mutex. A respawn keeps the time of its
-- `poll`; `start` reads the clock when it commits.
inductive PendingCall where
  | spawn (pollAt : Option Nat)
  | commit (result : Except String Nat) (pollAt : Option Nat)
  | reaped (now : Nat)
  | stopping
  deriving DecidableEq

structure Supervision where
  inner : Inner
  running : List Nat
  nextPid : Nat
  calls : AList (fun _ : Nat => PendingCall)
  nextTicket : Nat

inductive SupervisorStep where
  | start
  | poll (now : Nat) (exitCode : Option Int)
  | noteEmbeddedServerAlive (alive : Bool)
  | stop (exitCode : Option Int)
  | snapshot (now : Nat)
  -- `spawner.spawn()` of a call returns, with an error text if it failed.
  | spawned (ticket : Nat) (failure : Option String)
  | resume (ticket : Nat) (now : Nat)
  | die (pid : Nat)

inductive SupervisorLog where
  | event (event : SupervisorEvent)
  | startCalled
  | stopBegan (ticket : Nat)
  | stopReturned (ticket : Nat)
  deriving DecidableEq

namespace Supervision

def new (budget : RestartBudget) : Supervision := ⟨.new budget, [], 0, ∅, 0⟩

def suspend (world : Supervision) (inner : Inner) (call : PendingCall) : Supervision :=
  { world with
    inner := inner
    calls := world.calls.insert world.nextTicket call
    nextTicket := world.nextTicket + 1 }

def finish (world : Supervision) (ticket : Nat) (inner : Inner) : Supervision :=
  { world with inner := inner, calls := world.calls.erase ticket }

def kill (world : Supervision) (pid : Nat) : Supervision :=
  { world with running := world.running.filter (· ≠ pid) }

def start (world : Supervision) : Supervision × List SupervisorLog :=
  if world.inner.occupied then (world, [.startCalled])
  else (world.suspend world.inner.beginStart (.spawn none), [.startCalled])

def poll (world : Supervision) (now : Nat) (exitCode : Option Int) :
    Supervision × List SupervisorLog :=
  match world.inner.child with
  | some pid =>
      if pid ∈ world.running then ({ world with inner := world.inner.pollRunning now }, [])
      else
        (world.suspend (world.inner.reap pid exitCode) (.reaped now),
          [.event (.terminal pid exitCode)])
  | none =>
      if world.inner.respawns now then
        (world.suspend world.inner.beginRespawn (.spawn (some now)), [])
      else (world, [])

def stop (world : Supervision) (exitCode : Option Int) : Supervision × List SupervisorLog :=
  match world.inner.child with
  | some pid =>
      ((world.kill pid).suspend world.inner.dropChild .stopping,
        [.stopBegan world.nextTicket, .event (.terminal pid exitCode)])
  | none =>
      ({ world with inner := world.inner.finishStop, nextTicket := world.nextTicket + 1 },
        [.stopBegan world.nextTicket, .stopReturned world.nextTicket])

-- The spawner returns: a new child runs, or there is none.
def spawned (world : Supervision) (ticket : Nat) (failure : Option String) : Supervision :=
  match world.calls.lookup ticket with
  | some (.spawn pollAt) =>
      match failure with
      | some error =>
          { world with calls := world.calls.insert ticket (.commit (.error error) pollAt) }
      | none =>
          { world with
            calls := world.calls.insert ticket (.commit (.ok world.nextPid) pollAt)
            running := world.nextPid :: world.running
            nextPid := world.nextPid + 1 }
  | some (.commit _ _) | some (.reaped _) | some .stopping | none => world

def resume (world : Supervision) (ticket now : Nat) : Supervision × List SupervisorLog :=
  match world.calls.lookup ticket with
  | some (.commit result pollAt) =>
      let committed := world.inner.commitSpawnResult result (pollAt.getD now)
      (world.finish ticket committed.1, committed.2.map .event)
  | some (.reaped pollAt) =>
      let scheduled := world.inner.scheduleRestart pollAt
      (world.finish ticket scheduled.1, scheduled.2.map .event)
  | some .stopping => (world.finish ticket world.inner.finishStop, [.stopReturned ticket])
  | some (.spawn _) | none => (world, [])

def step (world : Supervision) : SupervisorStep → Supervision × List SupervisorLog
  | .start => world.start
  | .poll now exitCode => world.poll now exitCode
  | .noteEmbeddedServerAlive alive =>
      ({ world with inner := world.inner.noteEmbeddedServerAlive alive }, [])
  | .stop exitCode => world.stop exitCode
  | .snapshot now => ({ world with inner := world.inner.countRestarts now }, [])
  | .spawned ticket failure => (world.spawned ticket failure, [])
  | .resume ticket now => world.resume ticket now
  | .die pid => (world.kill pid, [])

end Supervision

end BetterParsec
