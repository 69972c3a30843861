import BetterParsec.Browser.DesktopControl
import BetterParsec.Wire.OutputSelection

set_option autoImplicit false
set_option linter.all false

/-!
# The selected output in the browser

`OutputSelection` of `desktop_control.ts`, the mirror of the one in
`desktop_control.rs`, and what both know of the requests the host still has to
answer.
-/

namespace BetterParsec

namespace Web

namespace DesktopControl

structure AppliedMode where
  outputId : Int
  width : Int
  height : Int
  refreshMhz : Int
  deriving DecidableEq

structure OutputSelection where
  appliedMode : Option AppliedMode := none
  pendingReq : Option ModeRequest := none
  deriving DecidableEq

namespace OutputSelection

def request (selection : OutputSelection) (req : ModeRequest) : OutputSelection :=
  { selection with pendingReq := some req }

def pending (selection : OutputSelection) : Option ModeRequest := selection.pendingReq

def applied (selection : OutputSelection) : Option AppliedMode := selection.appliedMode

def reconcile (selection : OutputSelection) (result : ModeResult) :
    OutputSelection × TransitionStatus :=
  let selection := { selection with pendingReq := none }
  if result.status = .applied ∨ result.status = .downgraded then
    ({ selection with
        appliedMode := some {
          outputId := result.outputId
          width := result.width
          height := result.height
          refreshMhz := result.refreshMhz } }, result.status)
  else (selection, result.status)

def onOutputRemoved (selection : OutputSelection) (outputId fallbackOutput : Int) :
    OutputSelection × Option ModeRequest :=
  if selection.appliedMode.any (·.outputId = outputId) then
    let req : ModeRequest :=
      { outputId := fallbackOutput, width := 0, height := 0, refreshMhz := 0 }
    ({ appliedMode := none, pendingReq := some req }, some req)
  else (selection, none)

def client : LateAnswers.Client OutputSelection ModeRequest ModeResult Int where
  pending := pending
  held selection := selection.applied.map (·.outputId)
  request := request
  answer selection result := (selection.reconcile result).1
  lost := onOutputRemoved
  granted result :=
    if result.status = .applied ∨ result.status = .downgraded then some result.outputId else none

theorem any_outputId (appliedMode : Option AppliedMode) (outputId : Int) :
    appliedMode.any (·.outputId = outputId) = true ↔
      appliedMode.map (·.outputId) = some outputId := by
  cases appliedMode <;> simp

theorem client_lawful : client.Lawful where
  pending_request _ _ := rfl
  held_request _ _ := rfl
  pending_answer selection result := by
    cases status : result.status <;> simp [client, reconcile, pending, status]
  held_answer selection result := by
    cases status : result.status <;> simp [client, reconcile, applied, status]
  lost_held selection outputId fallbackOutput held := by
    refine ⟨_, _, if_pos ((any_outputId _ _).mpr held), rfl, rfl⟩
  lost_other selection outputId fallbackOutput other :=
    if_neg fun found => other ((any_outputId _ _).mp found)

end OutputSelection

end DesktopControl

end Web

namespace DesktopControl

open LateAnswers Runs

/-- Whatever requests, answers and removals come in whatever order: the selection knows whether a
request is unanswered and never applies an output that was removed since it was asked for, exactly
if every answer belongs to the only request in flight and, unless it is a rejection, names an output
that was not removed since that request. -/
theorem selection_faithful_iff (events : List (Event ModeRequest ModeResult UInt16))
    (webEvents :
      List (Event Web.DesktopControl.ModeRequest Web.DesktopControl.ModeResult Int)) :
    ((∀ taken, taken <+: events → OutputSelection.client.Faithful
        (run OutputSelection.client.step (Client.start {}) taken).1) ↔
      Along OutputSelection.client.step (fun _ => OutputSelection.client.OnTime) []
        (Client.start {}) events) ∧
    ((∀ taken, taken <+: webEvents → Web.DesktopControl.OutputSelection.client.Faithful
        (run Web.DesktopControl.OutputSelection.client.step (Client.start {}) taken).1) ↔
      Along Web.DesktopControl.OutputSelection.client.step
        (fun _ => Web.DesktopControl.OutputSelection.client.OnTime) []
        (Client.start {}) webEvents) :=
  ⟨OutputSelection.client_lawful.faithful_iff_onTime (Client.faithful_start _ _ rfl rfl) events,
    Web.DesktopControl.OutputSelection.client_lawful.faithful_iff_onTime
      (Client.faithful_start _ _ rfl rfl) webEvents⟩

-- Two requests before the first answer; and an output that is removed before it is applied.
def crossed : List (Event ModeRequest ModeResult UInt16) :=
  [.request ⟨1, 1920, 1080, 60000⟩, .request ⟨1, 2560, 1440, 60000⟩,
    .answer ⟨1, 1920, 1080, 60000, .applied, none⟩]

def outrun : List (Event ModeRequest ModeResult UInt16) :=
  [.request ⟨1, 1920, 1080, 60000⟩, .lost 1 0, .answer ⟨1, 1920, 1080, 60000, .applied, none⟩]

theorem selection_not_faithful :
    ¬ (∀ events, OutputSelection.client.Faithful
        (run OutputSelection.client.step (Client.start {}) events).1) ∧
    ((run OutputSelection.client.step (Client.start {}) crossed).1.client.pending = none ∧
      (run OutputSelection.client.step (Client.start {}) crossed).1.unanswered = [[]]) ∧
    ((run OutputSelection.client.step (Client.start {}) outrun).1.client.applied =
        some ⟨1, 1920, 1080, 60000⟩ ∧
      (run OutputSelection.client.step (Client.start {}) outrun).1.since = [1]) :=
  ⟨fun every => absurd (every crossed).pending (by decide), by decide, by decide⟩

end DesktopControl

end BetterParsec
