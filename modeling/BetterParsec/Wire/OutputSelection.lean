import BetterParsec.Library.LateAnswers
import BetterParsec.Wire.DesktopControl

set_option autoImplicit false
set_option linter.all false

/-!
# The selected output

`OutputSelection` of `desktop_control.rs`: the mode that is in effect and the
request in flight.
-/

namespace BetterParsec

namespace DesktopControl

structure AppliedMode where
  outputId : UInt16
  width : UInt16
  height : UInt16
  refreshMhz : UInt32
  deriving DecidableEq

structure OutputSelection where
  applied : Option AppliedMode := none
  pending : Option ModeRequest := none
  deriving DecidableEq

namespace OutputSelection

def request (selection : OutputSelection) (req : ModeRequest) : OutputSelection :=
  { selection with pending := some req }

def reconcile (selection : OutputSelection) (result : ModeResult) :
    OutputSelection × TransitionStatus :=
  let selection := { selection with pending := none }
  match result.status with
  | .applied | .downgraded =>
      ({ selection with
          applied := some {
            outputId := result.outputId
            width := result.width
            height := result.height
            refreshMhz := result.refreshMhz } }, result.status)
  | .rejected => (selection, result.status)

def onOutputRemoved (selection : OutputSelection) (outputId fallbackOutput : UInt16) :
    OutputSelection × Option ModeRequest :=
  if selection.applied.map (·.outputId) = some outputId then
    let req : ModeRequest :=
      { outputId := fallbackOutput, width := 0, height := 0, refreshMhz := 0 }
    ({ applied := none, pending := some req }, some req)
  else (selection, none)

-- The selection as the client of a host that answers each of its requests.
def client : LateAnswers.Client OutputSelection ModeRequest ModeResult UInt16 where
  pending := pending
  held selection := selection.applied.map (·.outputId)
  request := request
  answer selection result := (selection.reconcile result).1
  lost := onOutputRemoved
  granted result :=
    match result.status with
    | .applied | .downgraded => some result.outputId
    | .rejected => none

theorem client_lawful : client.Lawful where
  pending_request _ _ := rfl
  held_request _ _ := rfl
  pending_answer selection result := by
    cases status : result.status <;> simp [client, reconcile, status]
  held_answer selection result := by
    cases status : result.status <;> simp [client, reconcile, status]
  lost_held selection outputId fallbackOutput held := by
    refine ⟨_, _, if_pos held, rfl, rfl⟩
  lost_other selection outputId fallbackOutput other := if_neg other

end OutputSelection

end DesktopControl

end BetterParsec
