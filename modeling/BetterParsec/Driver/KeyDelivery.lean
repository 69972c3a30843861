import BetterParsec.Driver.Interleaving
import BetterParsec.Library.Runs

set_option autoImplicit false
set_option linter.all false

/-!
# What the class service receives

The keyboard filter record by record: each iteration of the callback runs to its
end, with the class service taking or refusing what it is handed, and control
requests come between the records.  A record that is not consumed is received
again.
-/

namespace BetterParsec

namespace KbdFilter

namespace Local

structure Key where
  makeCode : UInt16
  extended : Bool
  deriving DecidableEq

def keyOf (input : KeyboardInputData) : Key := ⟨input.makeCode, extended input⟩

def Key.isAlt (key : Key) : Bool := key.makeCode == 0x38

def Key.isWin (key : Key) : Bool := key.makeCode == 0x5B || key.makeCode == 0x5C

def Key.isTab (key : Key) : Bool := key.makeCode == 0x0F

-- The records that are not consumed yet, the oldest first.
structure Keyboard where
  capture : CaptureState
  waiting : List KeyboardInputData

def Keyboard.new : Keyboard := ⟨.zero, []⟩

inductive Action where
  | press (input : KeyboardInputData)
  | iterate (now : UInt64) (takesPending takesRecord : Bool)
  | arm (request : ArmRequest) (now : UInt64)
  | disarm
  | status (now : UInt64)
  | readEvents (capacity : Nat)
  deriving DecidableEq

-- `replayed` is a pending Alt that reaches the class service.
inductive Entry where
  | pressed (input : KeyboardInputData)
  | replayed (input : KeyboardInputData)
  | delivered (input : KeyboardInputData)
  | withheld (input : KeyboardInputData)
  deriving DecidableEq

-- The record itself: its call of the class service, if there is one.
def handOver (c : CaptureState) (l : Locals) (input : KeyboardInputData) (now : UInt64)
    (takesRecord : Bool) : CaptureState × Bool × List Entry :=
  if !l.armed || !l.suppressLocal || isLocalSafetyKey input then
    if takesRecord then
      (if l.armed && !l.suppressLocal then enqueueDelivered c l input now else c, true,
        [.delivered input])
    else (if l.armed then restorePrior c l else c, false, [])
  else (c, true, [.withheld input])

-- The calls of the class service behind the first section.
def callOriginals (c : CaptureState) (l : Locals) (input : KeyboardInputData) (now : UInt64)
    (takesPending takesRecord : Bool) : CaptureState × Bool × List Entry :=
  if l.replayPending then
    if takesPending then
      let next := handOver (clearPending c) (if l.armed then { l with priorPending := false } else l)
        input now takesRecord
      (next.1, next.2.1, .replayed l.pendingAlt :: next.2.2)
    else (if l.armed then restorePrior c l else c, false, [])
  else handOver c l input now takesRecord

-- An iteration: the state, whether the record is consumed, and what became of it.
def iteration (c : CaptureState) (input : KeyboardInputData) (now : UInt64)
    (takesPending takesRecord : Bool) : CaptureState × Bool × List Entry :=
  callOriginals (examine c input now).1 (examine c input now).2 input now takesPending takesRecord

def step (k : Keyboard) : Action → Keyboard × List Entry
  | .press input => ({ k with waiting := k.waiting ++ [input] }, [.pressed input])
  | .iterate now takesPending takesRecord =>
    match k.waiting with
    | [] => (k, [])
    | input :: rest =>
      let next := iteration k.capture input now takesPending takesRecord
      (⟨next.1, if next.2.1 then rest else k.waiting⟩, next.2.2)
  | .arm request now => ({ k with capture := (armRequest k.capture request now).1 }, [])
  | .disarm => ({ k with capture := disarmLocked k.capture }, [])
  | .status now => ({ k with capture := (completeStatus k.capture now).1 }, [])
  | .readEvents capacity =>
    ({ k with capture := (readEventsLocked k.capture false capacity).1 }, [])

section Observations

-- The last edge of a key.
def lastEdge (key : Key) (records : List KeyboardInputData) : Option Bool :=
  records.foldl (fun last input => if keyOf input = key then some (keyDown input) else last) none

def pressed (log : List Entry) : List KeyboardInputData :=
  log.filterMap (fun
    | .pressed input => some input
    | _ => none)

def deliveries (log : List Entry) : List KeyboardInputData :=
  log.filterMap (fun
    | .replayed input => some input
    | .delivered input => some input
    | _ => none)

def consumed (log : List Entry) : List KeyboardInputData :=
  log.filterMap (fun
    | .delivered input => some input
    | .withheld input => some input
    | _ => none)

-- What a held Alt has to come before: any other record but a chord modifier.
def dependent : Entry → Bool
  | .replayed _ => true
  | .delivered input => !isChordModifier input
  | _ => false

-- An up of a key that is consumed.
def endsKey (key : Key) : Entry → Bool
  | .delivered input => keyOf input == key && !keyDown input
  | .withheld input => keyOf input == key && !keyDown input
  | _ => false

end Observations

-- Once everything is released and consumed, no key is down for the class service.
def Released (k : Keyboard) (log : List Entry) : Prop :=
  k.waiting = [] → (∀ key, lastEdge key (pressed log) ≠ some true) →
    ∀ key, lastEdge key (deliveries log) ≠ some true

-- An Alt down that was kept back is delivered before anything that depends on it, or its up is
-- kept back too.
def AltWhole (log : List Entry) : Prop :=
  ∀ before after alt, log = before ++ Local.Entry.withheld alt :: after →
    isAlt alt = true → keyDown alt = true →
      (∀ entry, after.find? dependent = some entry → entry = .replayed alt) ∨
      ∀ input, after.find? (endsKey (keyOf alt)) ≠ some (.delivered input)

-- When the callback and the control requests find the keys as they assume them.
section Condition

def Captures (c : CaptureState) : Prop :=
  c.capturingAltTab = true ∧ (c.leftAltDown = true ∨ c.rightAltDown = true)

def Expires (c : CaptureState) (now : UInt64) : Prop := c.armed = true ∧ c.deadline ≤ now

-- No key of the kind is down for the class service.
def NoneDown (kind : Key → Bool) (log : List Entry) : Prop :=
  ∀ input ∈ deliveries log, kind (keyOf input) = true →
    lastEdge (keyOf input) (deliveries log) ≠ some true

def StartsCapture (c : CaptureState) (input : KeyboardInputData) : Prop :=
  c.armed = true ∧ c.count ≠ bpRingCapacity ∧ c.pendingAlt = true ∧
    (isWin input = true ∨ isTab input = true ∧ keyDown input = true)

def Steady (log : List Entry) (k : Keyboard) : Action → Prop
  | .press _ => True
  | .iterate now _ _ =>
    ∀ input ∈ k.waiting.head?,
      (Expires k.capture now → ¬Captures k.capture) ∧
      ((expireLeaseLocked k.capture now).armed = true →
        (expireLeaseLocked k.capture now).count = bpRingCapacity → ¬Captures k.capture) ∧
      (StartsCapture (expireLeaseLocked k.capture now) input → NoneDown Key.isTab log)
  | .arm request now =>
    ((armRequest k.capture request now).2 ≠ .invalidParameter → Expires k.capture now →
      ¬Captures k.capture) ∧
    ((armRequest k.capture request now).2 = .success true →
      k.capture.pendingAlt = false ∧ ¬Captures k.capture ∧
        NoneDown (fun key => key.isAlt || key.isWin) log)
  | .disarm => ¬Captures k.capture
  | .status now => Expires k.capture now → ¬Captures k.capture
  | .readEvents _ => True

instance (c : CaptureState) : Decidable (Captures c) := inferInstanceAs (Decidable (_ ∧ _))

instance (c : CaptureState) (now : UInt64) : Decidable (Expires c now) :=
  inferInstanceAs (Decidable (_ ∧ _))

instance (kind : Key → Bool) (log : List Entry) : Decidable (NoneDown kind log) :=
  inferInstanceAs (Decidable (∀ input ∈ deliveries log, _))

instance (c : CaptureState) (input : KeyboardInputData) : Decidable (StartsCapture c input) :=
  inferInstanceAs (Decidable (_ ∧ _))

instance decidableSteady (log : List Entry) (k : Keyboard) :
    (action : Action) → Decidable (Steady log k action)
  | .press _ => .isTrue trivial
  | .iterate _ _ _ => inferInstanceAs (Decidable (∀ input ∈ k.waiting.head?, _))
  | .arm _ _ => inferInstanceAs (Decidable (_ ∧ _))
  | .disarm => inferInstanceAs (Decidable ¬Captures k.capture)
  | .status now => inferInstanceAs (Decidable (Expires k.capture now → ¬Captures k.capture))
  | .readEvents _ => .isTrue trivial

end Condition

end Local

end KbdFilter

end BetterParsec
