import Mathlib

set_option autoImplicit false
set_option linter.all false

/-!
# Lists that are made of frames

A list that is a sequence of frames of one width, each with a property, and the
operations that keep it one: what is added and what is taken off has the width of
whole frames.
-/

namespace Frames

variable {A : Type}

def Framed (width : Nat) (property : List A → Prop) (xs : List A) : Prop :=
  ∃ frames : List (List A), xs = frames.flatten ∧
    ∀ frame ∈ frames, frame.length = width ∧ property frame

variable {width : Nat} {property other : List A → Prop} {xs ys : List A}

theorem nil : Framed width property [] := ⟨[], rfl, by simp⟩

theorem of_frames {frames : List (List A)}
    (each : ∀ frame ∈ frames, frame.length = width ∧ property frame) :
    Framed width property frames.flatten := ⟨frames, rfl, each⟩

theorem Framed.append (first : Framed width property xs) (second : Framed width property ys) :
    Framed width property (xs ++ ys) := by
  obtain ⟨before, rfl, eachBefore⟩ := first
  obtain ⟨after, rfl, eachAfter⟩ := second
  exact ⟨before ++ after, List.flatten_append.symm, List.forall_mem_append.mpr ⟨eachBefore, eachAfter⟩⟩

theorem Framed.mono (framed : Framed width property xs)
    (weaker : ∀ frame, property frame → other frame) : Framed width other xs := by
  obtain ⟨frames, rfl, each⟩ := framed
  exact ⟨frames, rfl, fun frame member => ⟨(each frame member).1, weaker _ (each frame member).2⟩⟩

theorem Framed.dvd_length (framed : Framed width property xs) : width ∣ xs.length := by
  obtain ⟨frames, rfl, each⟩ := framed
  induction frames with
  | nil => simp
  | cons frame frames ih =>
    rw [List.flatten_cons, List.length_append, (each frame List.mem_cons_self).1]
    exact dvd_add (dvd_refl width)
      (ih fun other member => each other (List.mem_cons_of_mem _ member))

theorem flatten_split {frames : List (List A)} (each : ∀ frame ∈ frames, frame.length = width)
    (count : Nat) : frames.flatten.take (count * width) = (frames.take count).flatten ∧
      frames.flatten.drop (count * width) = (frames.drop count).flatten := by
  induction count generalizing frames with
  | zero => simp
  | succ count ih =>
    cases frames with
    | nil => simp
    | cons frame frames =>
      have length := each frame List.mem_cons_self
      obtain ⟨taken, dropped⟩ := ih fun other member => each other (List.mem_cons_of_mem _ member)
      have size : (count + 1) * width = frame.length + count * width := by rw [length]; ring
      rw [size, List.flatten_cons, List.take_length_add_append, List.drop_length_add_append, taken,
        dropped]
      exact ⟨rfl, rfl⟩

theorem Framed.take (framed : Framed width property xs) (count : Nat) :
    Framed width property (xs.take (count * width)) := by
  obtain ⟨frames, rfl, each⟩ := framed
  rw [(flatten_split (fun frame member => (each frame member).1) count).1]
  exact of_frames fun frame member => each frame (List.mem_of_mem_take member)

theorem Framed.drop (framed : Framed width property xs) (count : Nat) :
    Framed width property (xs.drop (count * width)) := by
  obtain ⟨frames, rfl, each⟩ := framed
  rw [(flatten_split (fun frame member => (each frame member).1) count).2]
  exact of_frames fun frame member => each frame (List.mem_of_mem_drop member)

theorem replicate (element : A) (count : Nat) (each : property (List.replicate width element)) :
    Framed width property (List.replicate (count * width) element) := by
  refine ⟨List.replicate count (List.replicate width element), ?_, ?_⟩
  · rw [List.flatten_replicate_replicate]
  · intro frame member
    rw [List.eq_of_mem_replicate member]
    exact ⟨List.length_replicate, each⟩

end Frames
