import Mathlib

set_option autoImplicit false
set_option linter.all false

/-!
# Lists of terminated words

Several words in one sequence, each with a terminator behind it and one more
behind the last. A word that is empty ends the list.
-/

namespace Terminated

variable {W : Type} [DecidableEq W] (terminator : W)

-- What is read behind the part `current` of a word; the last word may lack its terminator.
def read : List W → List W → List (List W)
  | current, [] => if current = [] then [] else [current]
  | current, letter :: rest =>
      if letter = terminator then
        if current = [] then [] else current :: read [] rest
      else read (current ++ [letter]) rest

def write (words : List (List W)) : List W :=
  words.flatMap (· ++ [terminator]) ++ [terminator]

variable {terminator}

theorem read_word {current word rest : List W} (plain : terminator ∉ word)
    (nonempty : current ++ word ≠ []) :
    read terminator current (word ++ terminator :: rest) =
      (current ++ word) :: read terminator [] rest := by
  induction word generalizing current with
  | nil =>
    rw [List.append_nil] at nonempty
    rw [List.nil_append, read, if_pos rfl, if_neg nonempty, List.append_nil]
  | cons letter word ih =>
    obtain ⟨other, plain⟩ := List.ne_and_not_mem_of_not_mem_cons plain
    rw [List.cons_append, read, if_neg (Ne.symm other), ih plain (by simp), List.append_assoc]
    rfl

/-- Words that are not empty and do not contain the terminator are read back. -/
theorem read_write {words : List (List W)} (nonempty : ∀ word ∈ words, word ≠ [])
    (plain : ∀ word ∈ words, terminator ∉ word) :
    read terminator [] (write terminator words) = words := by
  induction words with
  | nil =>
    rw [write, List.flatMap_nil, List.nil_append, read, if_pos rfl, if_pos rfl]
  | cons word words ih =>
    have split : write terminator (word :: words) =
        word ++ terminator :: write terminator words := by
      simp [write]
    have first : read terminator [] (word ++ terminator :: write terminator words) =
        ([] ++ word) :: read terminator [] (write terminator words) :=
      read_word (plain word List.mem_cons_self) (nonempty word List.mem_cons_self)
    rw [split, first, ih (fun other member => nonempty other (List.mem_cons_of_mem _ member))
      fun other member => plain other (List.mem_cons_of_mem _ member)]
    rfl

theorem read_nonempty {current letters word : List W}
    (member : word ∈ read terminator current letters) : word ≠ [] := by
  induction letters generalizing current with
  | nil =>
    rw [read] at member
    split at member
    · exact absurd member List.not_mem_nil
    next given => rwa [List.mem_singleton.mp member]
  | cons letter rest ih =>
    rw [read] at member
    split at member
    · split at member
      · exact absurd member List.not_mem_nil
      next given =>
        rcases List.mem_cons.mp member with rfl | later
        · exact given
        · exact ih later
    · exact ih member

end Terminated
