import BetterParsec.Library.Runs
import BetterParsec.Video.Receiver

set_option autoImplicit false
set_option linter.all false

/-!
# The outbound acknowledgement slot

`PendingAck` of `client-transport/src/session.rs`.  The slot keeps the larger
number of an epoch, where the receiver that fills it and the encoder that reads
it compare serially.
-/

namespace BetterParsec

structure PendingAck where
  slot : Option (Option UInt32 × UInt32)
  deriving DecidableEq

inductive PendingAckCall where
  | latch (epoch : Option UInt32) (value : UInt32)
  | clear
  deriving DecidableEq

namespace PendingAck

def default : PendingAck := ⟨none⟩

def latch (ack : PendingAck) (epoch : Option UInt32) (value : UInt32) : PendingAck :=
  match ack.slot with
  | some (e, v) => if e = epoch then ⟨some (epoch, max v value)⟩ else ⟨some (epoch, value)⟩
  | none => ⟨some (epoch, value)⟩

def value (ack : PendingAck) : Option UInt32 := ack.slot.map Prod.snd

def clear (_ : PendingAck) : PendingAck := ⟨none⟩

def call (ack : PendingAck) : PendingAckCall → PendingAck
  | .latch epoch value => ack.latch epoch value
  | .clear => ack.clear

-- What was latched last, if nothing was cleared since.
def newest : Option UInt32 → PendingAckCall → Option UInt32
  | _, .latch _ value => some value
  | _, .clear => none

-- The slot beside what it should hold.
def step (state : PendingAck × Option UInt32) (called : PendingAckCall) :
    (PendingAck × Option UInt32) × List Unit :=
  ((state.1.call called, newest state.2 called), [])

def start : PendingAck × Option UInt32 := (default, none)

def KeepsNewest (state : PendingAck × Option UInt32) : Prop := state.1.value = state.2

instance decidableKeepsNewest (state : PendingAck × Option UInt32) :
    Decidable (KeepsNewest state) :=
  inferInstanceAs (Decidable (_ = _))

-- A value that waits in the slot for the same epoch is not the larger number.
def Climbs (ack : PendingAck) : PendingAckCall → Prop
  | .latch epoch value => ∀ held ∈ ack.slot, held.1 = epoch → held.2 ≤ value
  | .clear => True

instance decidableClimbs (ack : PendingAck) (called : PendingAckCall) :
    Decidable (ack.Climbs called) :=
  match called with
  | .latch _ _ => inferInstanceAs (Decidable (∀ held ∈ _, _))
  | .clear => .isTrue trivial

theorem latch_value_iff (ack : PendingAck) (epoch : Option UInt32) (value : UInt32) :
    (ack.latch epoch value).value = some value ↔ ack.Climbs (.latch epoch value) := by
  obtain ⟨slot⟩ := ack
  cases slot with
  | none => simp [latch, PendingAck.value, Climbs]
  | some held =>
    obtain ⟨e, v⟩ := held
    by_cases same : e = epoch
    · simp [latch, PendingAck.value, Climbs, same]
    · simp [latch, PendingAck.value, Climbs, same]

/-- After every call of a run the slot holds what was latched last, exactly if no call latches a
smaller number for the epoch that waits in the slot. -/
theorem keeps_newest_iff (calls : List PendingAckCall) :
    (∀ taken, taken <+: calls → KeepsNewest (Runs.run step start taken).1) ↔
      Runs.Along step (fun _ state called => state.1.Climbs called) [] start calls := by
  apply Runs.along_iff_states step KeepsNewest (fun _ => True)
  · exact fun _ _ _ => trivial
  · intro seen state called _ _
    cases called with
    | clear => exact iff_of_true rfl trivial
    | latch epoch value => exact latch_value_iff state.1 epoch value
  · trivial
  · rfl

-- The sequence wraps while the last number before 2^32 waits in the slot.
def wrappingCalls : List PendingAckCall :=
  [.latch (some 1) 0xFFFFFFFF, .latch (some 1) 0]

theorem wrap_keeps_older :
    seqAdvanced 0 0xFFFFFFFF = true ∧ ¬KeepsNewest (Runs.run step start wrappingCalls).1 := by
  decide

end PendingAck

end BetterParsec
