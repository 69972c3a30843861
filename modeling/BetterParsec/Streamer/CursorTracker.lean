import BetterParsec.Library.LittleEndian
import BetterParsec.Library.Runs

set_option autoImplicit false
set_option linter.all false

/-!
# The cursor tracker

The loop of `streamer/src/transport/cursor_tracker.rs` with the frames of
`cursor_wire.rs`.  What Win32 and the sink answer in a tick is its input; what the loop
delivers, and what it does not, are its events.
-/

namespace BetterParsec

open LittleEndian (bytes)

namespace Cursor

structure CursorPos where
  visible : Bool
  x : Int32
  y : Int32
  vw : UInt16
  vh : UInt16
  shapeId : UInt32
  deriving DecidableEq

-- What `extract_shape` gives: the size, the hot spot and the PNG.
structure Shape where
  w : UInt16
  h : UInt16
  hotX : UInt16
  hotY : UInt16
  png : List UInt8
  deriving DecidableEq

def cursorKindPos : UInt8 := 0

def cursorKindShape : UInt8 := 1

def cursorShapeMaxPngLen : Nat := 262144

def encodePos (p : CursorPos) : List UInt8 :=
  [cursorKindPos, if p.visible then 1 else 0] ++ bytes 4 p.x.toUInt32.toNat ++
    bytes 4 p.y.toUInt32.toNat ++ bytes 2 p.vw.toNat ++ bytes 2 p.vh.toNat ++
    bytes 4 p.shapeId.toNat

def encodeShape (shapeId : UInt32) (shape : Shape) : Option (List UInt8) :=
  if shape.png.length > cursorShapeMaxPngLen then none
  else some (cursorKindShape :: bytes 4 shapeId.toNat ++ bytes 2 shape.w.toNat ++
    bytes 2 shape.h.toNat ++ bytes 2 shape.hotX.toNat ++ bytes 2 shape.hotY.toNat ++
    bytes 4 shape.png.length ++ shape.png)

abbrev HCursor := Int64

inductive SinkState where
  | wait
  | ready
  | closed
  deriving DecidableEq

-- `extracted`, `shapeSent` and `posSent` are only looked at where the loop asks.
structure Tick where
  sink : SinkState
  sample : Option (CursorPos × HCursor)
  extracted : Option Shape
  shapeSent : Bool
  posSent : Bool
  deriving DecidableEq

inductive Event where
  | shape (hcursor : HCursor) (shapeId : UInt32) (frame : List UInt8)
  | shapeLost (hcursor : HCursor)
  -- The PNG exceeds the cap.
  | refused (hcursor : HCursor)
  | unextracted (hcursor : HCursor)
  | pos (hcursor : HCursor) (pos : CursorPos) (frame : List UInt8)
  | posLost (hcursor : HCursor)
  deriving DecidableEq

def maxSendFailures : Nat := 10

structure Tracker where
  last : Option (CursorPos × HCursor)
  failures : Nat
  lastExtractedHcursor : Option HCursor
  currentShapeId : UInt32
  nextShapeId : UInt32
  deriving DecidableEq

namespace Tracker

def start : Tracker := ⟨none, 0, none, 0, 1⟩

-- A send that failed; `none` is the end of the loop.
def failed (t : Tracker) : Option Tracker :=
  let failures := t.failures + 1
  if failures ≥ maxSendFailures then none else some { t with failures := failures }

def extractStage (t : Tracker) (tick : Tick) (hcursor : HCursor) : Option Tracker × List Event :=
  if t.lastExtractedHcursor = some hcursor then (some t, [])
  else match tick.extracted with
    | some shape =>
      match encodeShape t.nextShapeId shape with
      | some frame =>
        if tick.shapeSent then
          (some { t with
            currentShapeId := t.nextShapeId
            nextShapeId := max (t.nextShapeId + 1) 1
            lastExtractedHcursor := some hcursor
            failures := 0 }, [.shape hcursor t.nextShapeId frame])
        else (t.failed, [.shapeLost hcursor])
      | none =>
        (some { t with currentShapeId := 0, lastExtractedHcursor := some hcursor },
          [.refused hcursor])
    | none => (some { t with currentShapeId := 0 }, [.unextracted hcursor])

def posStage (t : Tracker) (tick : Tick) (sampled : CursorPos) (hcursor : HCursor) :
    Option Tracker × List Event :=
  let toSend := { sampled with shapeId := t.currentShapeId }
  if t.last = some (sampled, hcursor) then (some t, [])
  else if tick.posSent then
    (some { t with failures := 0, last := some (sampled, hcursor) },
      [.pos hcursor toSend (encodePos toSend)])
  else (t.failed, [.posLost hcursor])

-- One turn of the loop.
def turn (t : Tracker) (tick : Tick) : Option Tracker × List Event :=
  match tick.sink with
  | .closed => (none, [])
  | .wait => (some { t with lastExtractedHcursor := none }, [])
  | .ready =>
    match tick.sample with
    | none => (some t, [])
    | some (sampled, hcursor) =>
      match t.extractStage tick hcursor with
      | (none, events) => (none, events)
      | (some t, events) =>
        let rest := t.posStage tick sampled hcursor
        (rest.1, events ++ rest.2)

-- After its end the loop does nothing.
def step (t : Option Tracker) (tick : Tick) : Option Tracker × List Event :=
  match t with
  | none => (none, [])
  | some t => t.turn tick

end Tracker

section Log

-- The shapes that were delivered.
def shapes (log : List Event) : List (UInt32 × HCursor) :=
  log.filterMap fun
    | .shape hcursor shapeId _ => some (shapeId, hcursor)
    | _ => none

-- The shape ids of a cursor, zero where its shape was refused.
def shapeIds (hcursor : HCursor) (log : List Event) : List UInt32 :=
  log.filterMap fun
    | .shape other shapeId _ => if other = hcursor then some shapeId else none
    | .refused other => if other = hcursor then some 0 else none
    | _ => none

def positions (log : List Event) : List CursorPos :=
  log.filterMap fun
    | .pos _ pos _ => some pos
    | _ => none

-- What the most recent SHAPE for a cursor says, and the most recent POS.
def shapeIdOf (hcursor : HCursor) (log : List Event) : Option UInt32 :=
  (shapeIds hcursor log).getLast?

def lastPos (log : List Event) : Option CursorPos := (positions log).getLast?

def Event.isFailure : Event → Bool
  | .shapeLost _ | .unextracted _ | .posLost _ => true
  | _ => false

end Log

example : (Runs.run Tracker.step (some .start)
    [⟨.ready, some (⟨true, 5, 6, 100, 80, 0⟩, 1), some ⟨1, 1, 0, 0, [7]⟩, true, true⟩,
      ⟨.ready, some (⟨true, 5, 6, 100, 80, 0⟩, 2), none, true, true⟩]).2.map Event.isFailure =
    [false, false, true, false] := by
  decide

end Cursor

end BetterParsec
