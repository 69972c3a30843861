import Mathlib

set_option autoImplicit false
set_option linter.all false

/-!
# Ring buffers

The entries that a ring of `size` slots holds, from its head on.
-/

namespace RingSlots

variable {A : Type} {size : Nat} [NeZero size]

def contents (slots : Fin size → A) (head count : Nat) : List A :=
  (List.range count).map (fun index => slots (Fin.ofNat size (head + index)))

def put (slots : Fin size → A) (head count : Nat) (entry : A) : Fin size → A :=
  Function.update slots (Fin.ofNat size (head + count)) entry

@[simp] theorem length_contents (slots : Fin size → A) (head count : Nat) :
    (contents slots head count).length = count := by
  rw [contents, List.length_map, List.length_range]

@[simp] theorem contents_zero (slots : Fin size → A) (head : Nat) : contents slots head 0 = [] :=
  rfl

-- Slots of a ring that is not full differ.
theorem slot_ne {head index count : Nat} (before : index < count) (fits : count < size) :
    Fin.ofNat size (head + index) ≠ Fin.ofNat size (head + count) := by
  intro same
  have equal : (head + index) % size = (head + count) % size := congrArg Fin.val same
  have congruent : index ≡ count [MOD size] := Nat.ModEq.add_left_cancel' head equal
  have := Nat.ModEq.eq_of_lt_of_lt congruent (by omega) fits
  omega

theorem contents_put (slots : Fin size → A) (head count : Nat) (entry : A) (fits : count < size) :
    contents (put slots head count entry) head (count + 1) =
      contents slots head count ++ [entry] := by
  rw [contents, List.range_succ, List.map_append, List.map_singleton, put, Function.update_self,
    contents]
  congr 1
  apply List.map_congr_left
  intro index member
  exact Function.update_of_ne (slot_ne (List.mem_range.mp member) fits) _ _

/-- What remains after the first `taken` entries are removed. -/
theorem contents_drop (slots : Fin size → A) (head count taken : Nat) (enough : taken ≤ count) :
    contents slots head taken ++ contents slots ((head + taken) % size) (count - taken) =
      contents slots head count := by
  have moved (index : Nat) : Fin.ofNat size ((head + taken) % size + index) =
      Fin.ofNat size (head + (taken + index)) := by
    apply Fin.ext
    change ((head + taken) % size + index) % size = (head + (taken + index)) % size
    rw [Nat.mod_add_mod, Nat.add_assoc]
  obtain ⟨left, rfl⟩ := Nat.exists_eq_add_of_le enough
  rw [Nat.add_sub_cancel_left, contents, contents, contents, List.range_add, List.map_append,
    List.map_map]
  congr 1
  apply List.map_congr_left
  intro index _
  exact congrArg slots (moved index)

end RingSlots
