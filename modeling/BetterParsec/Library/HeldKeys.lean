import Mathlib

set_option autoImplicit false
set_option linter.all false

/-!
# Keys that are held

A stream of presses and releases, the keys that are down after it, and the
streams in which only a key that is down is released.
-/

namespace HeldKeys

variable {K : Type} [DecidableEq K]

inductive Edge (K : Type) where
  | down (key : K)
  | up (key : K)
  deriving DecidableEq

def Edge.key : Edge K → K
  | .down key | .up key => key

def hold (held : Finset K) : Edge K → Finset K
  | .down key => insert key held
  | .up key => held.erase key

def after (held : Finset K) (edges : List (Edge K)) : Finset K := edges.foldl hold held

-- Every release is one of a key that is held then.
def Matched : Finset K → List (Edge K) → Prop
  | _, [] => True
  | held, edge :: rest => (∀ key, edge = .up key → key ∈ held) ∧ Matched (hold held edge) rest

@[simp] theorem after_nil (held : Finset K) : after held [] = held := rfl

@[simp] theorem after_append (held : Finset K) (first second : List (Edge K)) :
    after held (first ++ second) = after (after held first) second := List.foldl_append

@[simp] theorem matched_append (held : Finset K) (first second : List (Edge K)) :
    Matched held (first ++ second) ↔ Matched held first ∧ Matched (after held first) second := by
  induction first generalizing held with
  | nil => simp [Matched]
  | cons edge rest ih => simp [Matched, ih, after, and_assoc]

@[simp] theorem matched_down (held : Finset K) (key : K) (rest : List (Edge K)) :
    Matched held (.down key :: rest) ↔ Matched (insert key held) rest := by
  simp [Matched, hold]

@[simp] theorem matched_up (held : Finset K) (key : K) (rest : List (Edge K)) :
    Matched held (.up key :: rest) ↔ key ∈ held ∧ Matched (held.erase key) rest := by
  simp [Matched, hold]

theorem after_downs (held : Finset K) (keys : List K) :
    after held (keys.map .down) = held ∪ keys.toFinset := by
  induction keys generalizing held with
  | nil => simp
  | cons key keys ih =>
    have step : after held ((key :: keys).map .down) = after (insert key held) (keys.map .down) := rfl
    rw [step, ih, List.toFinset_cons, Finset.insert_union, Finset.union_insert]

theorem matched_downs (held : Finset K) (keys : List K) : Matched held (keys.map .down) := by
  induction keys generalizing held with
  | nil => trivial
  | cons key keys ih => exact (matched_down held key _).mpr (ih _)

/-- Releasing every held key, each once, leaves none. -/
theorem release_all {held : Finset K} {keys : List K} (nodup : keys.Nodup)
    (same : held = keys.toFinset) :
    Matched held (keys.map .up) ∧ after held (keys.map .up) = ∅ := by
  induction keys generalizing held with
  | nil => exact ⟨trivial, same⟩
  | cons key keys ih =>
    obtain ⟨fresh, nodup⟩ := List.nodup_cons.mp nodup
    have left : held.erase key = keys.toFinset := by
      rw [same, List.toFinset_cons, Finset.erase_insert (by simpa using fresh)]
    obtain ⟨matched, none⟩ := ih nodup left
    exact ⟨(matched_up held key _).mpr ⟨by simp [same], matched⟩, none⟩

end HeldKeys
