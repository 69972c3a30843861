import BetterParsec.Library.Runs

set_option autoImplicit false
set_option linter.all false

/-!
# The clipboard watcher

The loop of `clipboard.rs` together with the host clipboard it polls: the
steps are the user's copies, the watcher's ticks, and the texts that arrive
from the peer.  What goes out to the peer and what comes in from it is the
output of a step, so that the peer's latest text is the last one of a run.
-/

namespace BetterParsec

namespace Clipboard

def maxSendFailures : Nat := 10

def clipboardMaxLen : Nat := 262144

inductive SinkState where
  | wait
  | ready
  | closed
  deriving DecidableEq

def exceedsCap (text : String) : Bool := text.utf8ByteSize > clipboardMaxLen

def shouldPublish (current : String) (lastApplied lastSent : Option String) : Bool :=
  if lastApplied = some current then false
  else if lastSent = some current then false
  else true

-- The variables of `run`; `exited` once it has returned.
structure Watcher where
  lastSeq : Option Nat
  lastSent : Option String
  lastApplied : Option String
  failures : Nat
  applyClosed : Bool
  exited : Bool
  deriving DecidableEq

def Watcher.new : Watcher := ⟨none, none, none, 0, false, false⟩

-- The text is the one a read finds, none where the clipboard holds something else.
structure Host where
  text : Option String
  seq : Nat
  deriving DecidableEq

-- A stored text ends at its first NUL, and a read stops there.
def storedText (text : String) : String := String.ofList (text.toList.takeWhile (· ≠ '\x00'))

-- What a write comes to: it opens the clipboard, empties it, and sets the text.
inductive WriteOutcome where
  | done
  | refused
  | emptied
  deriving DecidableEq

def Host.write (host : Host) (text : String) : WriteOutcome → Host
  | .done => { text := some (storedText text), seq := host.seq + 1 }
  | .refused => host
  | .emptied => { text := none, seq := host.seq + 1 }

structure World where
  watcher : Watcher
  host : Host
  deriving DecidableEq

inductive Step where
  | hostCopy (text : Option String)
  | tick (sink : SinkState) (readOk sendOk : Bool)
  | inbound (text : String) (outcome : WriteOutcome)
  | inboundClosed
  deriving DecidableEq

-- What passes between the watcher and the peer.
inductive Traffic where
  | sent (text : String)
  | received (text : String)
  deriving DecidableEq

def Traffic.text : Traffic → String
  | .sent text => text
  | .received text => text

def publish (watcher : Watcher) (current : String) (sendOk : Bool) : Watcher × List Traffic :=
  if !shouldPublish current watcher.lastApplied watcher.lastSent then (watcher, [])
  else if exceedsCap current then (watcher, [])
  else if sendOk then
    ({ watcher with failures := 0, lastSent := some current }, [.sent current])
  else
    let failures := watcher.failures + 1
    ({ watcher with failures := failures, exited := failures ≥ maxSendFailures }, [])

-- The sequence number is recorded before the text is read.
def poll (watcher : Watcher) (host : Host) (readOk sendOk : Bool) : Watcher × List Traffic :=
  if watcher.lastSeq = some host.seq then (watcher, [])
  else
    let watcher := { watcher with lastSeq := some host.seq }
    match if readOk then host.text else none with
    | none => (watcher, [])
    | some current => publish watcher current sendOk

def onTick (watcher : Watcher) (host : Host) (sink : SinkState) (readOk sendOk : Bool) :
    Watcher × List Traffic :=
  match sink with
  | .ready => poll watcher host readOk sendOk
  | .closed => ({ watcher with exited := true }, [])
  | .wait => (watcher, [])

-- The text counts as applied before it is written.
def onInbound (world : World) (text : String) (outcome : WriteOutcome) : World :=
  if exceedsCap text then world
  else
    { watcher := { world.watcher with lastApplied := some text }
      host := world.host.write text outcome }

def step (world : World) : Step → World × List Traffic
  | .hostCopy text => ({ world with host := { text := text, seq := world.host.seq + 1 } }, [])
  | .tick sink readOk sendOk =>
    if world.watcher.exited then (world, [])
    else
      let (watcher, traffic) := onTick world.watcher world.host sink readOk sendOk
      ({ world with watcher := watcher }, traffic)
  | .inbound text outcome =>
    if world.watcher.exited ∨ world.watcher.applyClosed then (world, [])
    else (onInbound world text outcome, [.received text])
  | .inboundClosed =>
    ({ world with watcher := { world.watcher with applyClosed := true } }, [])

-- A watcher that has just been spawned over some clipboard.
def World.start (host : Host) : World := ⟨Watcher.new, host⟩

-- The later of the last text sent and the last text received.
def peerText (traffic : List Traffic) : Option String := traffic.getLast?.map Traffic.text

@[simp] theorem peerText_nil : peerText [] = none := rfl

@[simp] theorem peerText_concat (traffic : List Traffic) (last : Traffic) :
    peerText (traffic ++ [last]) = some last.text := by
  simp [peerText]

theorem shouldPublish_iff (current : String) (lastApplied lastSent : Option String) :
    shouldPublish current lastApplied lastSent ↔
      lastApplied ≠ some current ∧ lastSent ≠ some current := by
  rw [shouldPublish]
  split
  · simp_all
  · split <;> simp_all

-- The text on the host clipboard, where it is one the watcher may send.
def Host.shareable (host : Host) : Option String :=
  host.text.filter fun text => !exceedsCap text

-- A tick would look at the clipboard again.
def World.Unpolled (world : World) : Prop := world.watcher.lastSeq ≠ some world.host.seq

instance decidableUnpolled (world : World) : Decidable world.Unpolled :=
  inferInstanceAs (Decidable (_ ≠ _))

-- The loop still takes texts from the peer.
def World.Delivers (world : World) : Prop :=
  world.watcher.exited = false ∧ world.watcher.applyClosed = false

instance decidableDelivers (world : World) : Decidable world.Delivers :=
  inferInstanceAs (Decidable (_ ∧ _))

theorem delivers_iff {world : World} :
    world.Delivers ↔ ¬(world.watcher.exited ∨ world.watcher.applyClosed) := by
  rw [World.Delivers, not_or, Bool.not_eq_true, Bool.not_eq_true]

-- The text a poll sends, if it sends one.
def outgoing (watcher : Watcher) (host : Host) (readOk sendOk : Bool) : Option String :=
  if watcher.lastSeq = some host.seq then none
  else if readOk && sendOk then
    host.shareable.filter fun text => shouldPublish text watcher.lastApplied watcher.lastSent
  else none

theorem publish_traffic (watcher : Watcher) (current : String) (sendOk : Bool) :
    (publish watcher current sendOk).2 =
      if shouldPublish current watcher.lastApplied watcher.lastSent && !exceedsCap current &&
        sendOk then [.sent current] else [] := by
  rw [publish]
  cases shouldPublish current watcher.lastApplied watcher.lastSent <;>
    cases exceedsCap current <;> cases sendOk <;> rfl

theorem publish_kept (watcher : Watcher) (current : String) (sendOk : Bool) :
    (publish watcher current sendOk).1.lastSeq = watcher.lastSeq := by
  rw [publish]
  cases shouldPublish current watcher.lastApplied watcher.lastSent <;>
    cases exceedsCap current <;> cases sendOk <;> rfl

theorem poll_traffic (watcher : Watcher) (host : Host) (readOk sendOk : Bool) :
    (poll watcher host readOk sendOk).2 =
      (outgoing watcher host readOk sendOk).toList.map .sent := by
  rw [poll, outgoing]
  by_cases polled : watcher.lastSeq = some host.seq
  · simp [polled]
  · rw [if_neg polled, if_neg polled]
    cases readOk with
    | false => rfl
    | true =>
      cases found : host.text with
      | none => cases sendOk <;> simp [Host.shareable, found]
      | some current =>
        simp only [if_true, publish_traffic, Host.shareable, found]
        cases published : shouldPublish current watcher.lastApplied watcher.lastSent <;>
          cases capped : exceedsCap current <;> cases sendOk <;>
          simp [Option.filter, published, capped]

/-- Whatever becomes of the read and of the send, the sequence number is used up. -/
theorem poll_lastSeq (watcher : Watcher) (host : Host) (readOk sendOk : Bool) :
    (poll watcher host readOk sendOk).1.lastSeq = some host.seq := by
  rw [poll]
  by_cases polled : watcher.lastSeq = some host.seq
  · rw [if_pos polled]
    exact polled
  · rw [if_neg polled]
    dsimp only
    split
    · rfl
    · rw [publish_kept]

theorem outgoing_mem_shareable {watcher : Watcher} {host : Host} {readOk sendOk : Bool}
    {text : String} (sent : outgoing watcher host readOk sendOk = some text) :
    host.shareable = some text := by
  rw [outgoing] at sent
  split at sent
  · cases sent
  · split at sent
    · exact (Option.filter_eq_some_iff.mp sent).1
    · cases sent

end Clipboard

end BetterParsec
