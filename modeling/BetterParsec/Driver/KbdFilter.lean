import BetterParsec.Library.RingSlots

set_option autoImplicit false
set_option linter.all false

/-!
# The keyboard filter

The capture state of `driver.c` and the sections that the keyboard callback and
the control requests run under its lock.
-/

namespace BetterParsec

namespace KbdFilter

structure KeyboardInputData where
  makeCode : UInt16
  flags : UInt16
  extraInformation : UInt32
  deriving DecidableEq

def keyBreak : UInt16 := 1

def keyE0 : UInt16 := 2

def bpKbdProtocolVersion : UInt16 := 1

def bpKbdEventKindKey : UInt16 := 1

structure BpKbdEventV1 where
  version : UInt16
  kind : UInt16
  sequence : UInt32
  nonce : UInt64
  makeCode : UInt16
  flags : UInt16
  extraInformation : UInt32
  interruptTime100ns : UInt64
  deriving DecidableEq

def bpRingCapacity : Nat := 128

instance : NeZero bpRingCapacity := ⟨by decide⟩

-- `Head`, `Count` and `Dropped` stay far below the width of their fields.
structure CaptureState where
  armed : Bool
  epochFaulted : Bool
  nonce : UInt64
  deadline : UInt64
  leftAltDown : Bool
  rightAltDown : Bool
  pendingAlt : Bool
  pendingAltInput : KeyboardInputData
  capturingAltTab : Bool
  altTabDown : Bool
  nextSequence : UInt32
  head : Nat
  count : Nat
  dropped : Nat
  events : Fin bpRingCapacity → BpKbdEventV1

-- The driver's globals start as zeros.
def CaptureState.zero : CaptureState :=
  { armed := false
    epochFaulted := false
    nonce := 0
    deadline := 0
    leftAltDown := false
    rightAltDown := false
    pendingAlt := false
    pendingAltInput := ⟨0, 0, 0⟩
    capturingAltTab := false
    altTabDown := false
    nextSequence := 0
    head := 0
    count := 0
    dropped := 0
    events := fun _ => ⟨0, 0, 0, 0, 0, 0, 0, 0⟩ }

section Keys

variable (input : KeyboardInputData)

def isAlt : Bool := input.makeCode == 0x38

def isWin : Bool := input.makeCode == 0x5B || input.makeCode == 0x5C

def isTab : Bool := input.makeCode == 0x0F

def isChordModifier : Bool :=
  input.makeCode == 0x1D || input.makeCode == 0x2A || input.makeCode == 0x36

-- Delete, Q, the backquote and F4.
def isLocalSafetyKey : Bool :=
  input.makeCode == 0x53 || input.makeCode == 0x10 || input.makeCode == 0x29 ||
    input.makeCode == 0x3E

def keyDown : Bool := input.flags &&& keyBreak == 0

def extended : Bool := input.flags &&& keyE0 != 0

end Keys

def updateAltStateLocked (c : CaptureState) (input : KeyboardInputData) : CaptureState :=
  if !isAlt input then c
  else if extended input then { c with rightAltDown := keyDown input }
  else { c with leftAltDown := keyDown input }

-- The entry that the next record becomes.
def nextEvent (c : CaptureState) (input : KeyboardInputData) (now : UInt64) : BpKbdEventV1 :=
  { version := bpKbdProtocolVersion
    kind := bpKbdEventKindKey
    sequence := c.nextSequence + 1
    nonce := c.nonce
    makeCode := input.makeCode
    flags := input.flags
    extraInformation := input.extraInformation
    interruptTime100ns := now }

def enqueueEventLocked (c : CaptureState) (input : KeyboardInputData) (now : UInt64) :
    CaptureState :=
  { c with
    events := RingSlots.put c.events c.head c.count (nextEvent c input now)
    nextSequence := c.nextSequence + 1
    count := c.count + 1 }

def faultEpochLocked (c : CaptureState) : CaptureState :=
  { c with
    armed := false
    epochFaulted := true
    leftAltDown := false
    rightAltDown := false
    capturingAltTab := false
    altTabDown := false
    dropped := c.dropped + 1 }

def expireLeaseLocked (c : CaptureState) (now : UInt64) : CaptureState :=
  if c.armed && c.deadline ≤ now then faultEpochLocked c else c

-- What an iteration of the callback keeps in its local variables.
structure Locals where
  armed : Bool
  nonce : UInt64
  replayPending : Bool
  pendingAlt : KeyboardInputData
  suppressLocal : Bool
  priorLeftAlt : Bool
  priorRightAlt : Bool
  priorPending : Bool
  priorPendingAlt : KeyboardInputData
  priorCapturing : Bool
  priorTabDown : Bool
  deriving DecidableEq

-- What the first section decides for a record of an armed epoch: the state, whether the
-- pending Alt is replayed, and whether the record is kept from the class service.
def decideLocked (c : CaptureState) (input : KeyboardInputData) (wasAltDown : Bool) :
    CaptureState × Bool × Bool :=
  if isWin input then
    if c.pendingAlt then
      ({ c with pendingAlt := false, capturingAltTab := true, altTabDown := false }, false, true)
    else (c, false, true)
  else if c.capturingAltTab then
    if isAlt input || isTab input then
      let c := if isTab input then { c with altTabDown := keyDown input } else c
      let c :=
        if !keyDown input && isAlt input && !c.leftAltDown && !c.rightAltDown && !c.altTabDown then
          { c with capturingAltTab := false }
        else c
      let c :=
        if !keyDown input && isTab input && !c.leftAltDown && !c.rightAltDown then
          { c with capturingAltTab := false }
        else c
      (c, false, true)
    else (c, false, false)
  else if c.pendingAlt then
    if isTab input && keyDown input then
      ({ c with pendingAlt := false, capturingAltTab := true, altTabDown := true }, false, true)
    else if !isChordModifier input then (c, true, false)
    else (c, false, false)
  else if isAlt input && keyDown input && !wasAltDown then
    ({ c with pendingAltInput := input, pendingAlt := true }, false, true)
  else (c, false, false)

def priorLocals (c : CaptureState) : Locals :=
  { armed := c.armed
    nonce := c.nonce
    replayPending := !c.armed && c.pendingAlt
    pendingAlt := c.pendingAltInput
    suppressLocal := false
    priorLeftAlt := c.leftAltDown
    priorRightAlt := c.rightAltDown
    priorPending := c.pendingAlt
    priorPendingAlt := c.pendingAltInput
    priorCapturing := c.capturingAltTab
    priorTabDown := c.altTabDown }

-- The decision about a record once it has moved the Alt flags.
def decided (c : CaptureState) (input : KeyboardInputData) : CaptureState × Bool × Bool :=
  decideLocked (updateAltStateLocked c input) input (c.leftAltDown || c.rightAltDown)

-- The rest of the first section, behind the check of the lease.
def examineLocked (c : CaptureState) (input : KeyboardInputData) (now : UInt64) :
    CaptureState × Locals :=
  if !c.armed then (c, priorLocals c)
  else if c.count = bpRingCapacity then
    (faultEpochLocked c, { priorLocals c with armed := false, replayPending := c.pendingAlt })
  else
    let (decided, replay, suppress) := decided c input
    (if suppress then enqueueEventLocked decided input now else decided,
      { priorLocals c with replayPending := replay, suppressLocal := suppress })

-- The first section of an iteration.
def examine (c : CaptureState) (input : KeyboardInputData) (now : UInt64) :
    CaptureState × Locals :=
  examineLocked (expireLeaseLocked c now) input now

section Examine

variable {c : CaptureState} (input : KeyboardInputData) (now : UInt64)

theorem examineLocked_unarmed (unarmed : c.armed = false) :
    examineLocked c input now = (c, priorLocals c) := by
  rw [examineLocked, unarmed]
  rfl

theorem examineLocked_full (armed : c.armed = true) (full : c.count = bpRingCapacity) :
    examineLocked c input now = (faultEpochLocked c,
      { priorLocals c with armed := false, replayPending := c.pendingAlt }) := by
  rw [examineLocked, armed, if_neg (by decide), if_pos full]

theorem examineLocked_armed (armed : c.armed = true) (room : c.count ≠ bpRingCapacity) :
    examineLocked c input now =
      (if (decided c input).2.2 then enqueueEventLocked (decided c input).1 input now
        else (decided c input).1,
        { priorLocals c with
          replayPending := (decided c input).2.1
          suppressLocal := (decided c input).2.2 }) := by
  rw [examineLocked, armed, if_neg (by decide), if_neg room]

end Examine

-- Whether the epoch is still the one that the iteration found.
def sameEpoch (c : CaptureState) (l : Locals) : Bool :=
  c.armed && !c.epochFaulted && c.nonce == l.nonce

-- The section behind a refused call.
def restorePrior (c : CaptureState) (l : Locals) : CaptureState :=
  if sameEpoch c l then
    { c with
      leftAltDown := l.priorLeftAlt
      rightAltDown := l.priorRightAlt
      pendingAlt := l.priorPending
      pendingAltInput := l.priorPendingAlt
      capturingAltTab := l.priorCapturing
      altTabDown := l.priorTabDown }
  else c

-- The section behind a replayed Alt.
def clearPending (c : CaptureState) : CaptureState := { c with pendingAlt := false }

-- The section behind a record that the class service has taken.
def enqueueDelivered (c : CaptureState) (l : Locals) (input : KeyboardInputData) (now : UInt64) :
    CaptureState :=
  if sameEpoch c l then enqueueEventLocked c input now else c

structure ArmRequest where
  version : UInt16
  leaseMs : UInt32
  nonce : UInt64
  deriving DecidableEq

def bp100nsPerMillisecond : UInt64 := 10000

def resetEpoch (c : CaptureState) : CaptureState :=
  { c with
    head := 0
    count := 0
    dropped := 0
    nextSequence := 0
    leftAltDown := false
    rightAltDown := false
    capturingAltTab := false
    altTabDown := false
    epochFaulted := false }

inductive ArmStatus where
  | invalidParameter
  | deviceBusy
  | deviceNotReady
  | success (reset : Bool)
  deriving DecidableEq

def grantArm (c : CaptureState) (arm : ArmRequest) (now : UInt64) : CaptureState :=
  { c with
    armed := true
    nonce := arm.nonce
    deadline := now + arm.leaseMs.toUInt64 * bp100nsPerMillisecond }

-- ARM: the section, with the status it completes with.
def armLocked (c : CaptureState) (arm : ArmRequest) (now : UInt64) : CaptureState × ArmStatus :=
  let c := expireLeaseLocked c now
  if !c.armed && c.pendingAlt then (c, .deviceBusy)
  else if c.epochFaulted && c.nonce == arm.nonce then (c, .deviceNotReady)
  else if !c.armed || c.nonce != arm.nonce then (grantArm (resetEpoch c) arm now, .success true)
  else (grantArm c arm now, .success false)

def armRequest (c : CaptureState) (arm : ArmRequest) (now : UInt64) : CaptureState × ArmStatus :=
  if arm.version != bpKbdProtocolVersion || arm.leaseMs == 0 || arm.leaseMs > 1000 then
    (c, .invalidParameter)
  else armLocked c arm now

-- DISARM: the section between the two changes of the callback gate.
def disarmLocked (c : CaptureState) : CaptureState :=
  { c with
    armed := false
    epochFaulted := false
    leftAltDown := false
    rightAltDown := false
    capturingAltTab := false
    altTabDown := false }

structure BpKbdStatus where
  armed : Bool
  queued : Nat
  dropped : Nat
  nonce : UInt64
  deadlineInterruptTime100ns : UInt64
  deriving DecidableEq

def completeStatus (c : CaptureState) (now : UInt64) : CaptureState × BpKbdStatus :=
  let c := expireLeaseLocked c now
  (c, ⟨c.armed, c.count, c.dropped, c.nonce, c.deadline⟩)

structure ReadEvents where
  dropped : Nat
  events : List BpKbdEventV1
  deriving DecidableEq

-- READ_EVENTS for a buffer of `capacity` events; nothing is read while the gate is taken.
def readEventsLocked (c : CaptureState) (gateTaken : Bool) (capacity : Nat) :
    CaptureState × ReadEvents :=
  let count := if gateTaken then 0 else if c.count < capacity then c.count else capacity
  ({ c with
      head := (c.head + count) % bpRingCapacity
      count := c.count - count
      dropped := if count ≠ 0 then 0 else c.dropped },
    ⟨c.dropped, RingSlots.contents c.events c.head count⟩)

end KbdFilter

end BetterParsec
