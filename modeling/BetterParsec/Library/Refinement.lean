import BetterParsec.Library.Runs

set_option autoImplicit false
set_option linter.all false

/-!
# Machines that may fail

A step that returns `none` has failed for good. Such a machine refines one that
cannot fail if, from related states, it does not fail, emits the same and ends
in related states.
-/

namespace Refinement

variable {S T I O : Type}

def tryThen (first : Option (S × List O)) (next : S → Option (S × List O)) :
    Option (S × List O) := do
  let (middle, emitted) ← first
  let (last, later) ← next middle
  return (last, emitted ++ later)

def tryRun (step : S → I → Option (S × List O)) : S → List I → Option (S × List O)
  | state, [] => some (state, [])
  | state, input :: rest => tryThen (step state input) (fun next => tryRun step next rest)

-- The attempt succeeds, with the output of `result` and a state related to its state.
def Matches (related : S → T → Prop) (attempt : Option (S × List O)) (result : T × List O) :
    Prop :=
  ∃ state, attempt = some (state, result.2) ∧ related state result.1

variable {related : S → T → Prop}

theorem matches_some {state : S} {other : T} (held : related state other) (emitted : List O) :
    Matches related (some (state, emitted)) (other, emitted) :=
  ⟨state, rfl, held⟩

theorem Matches.andThen {first : Option (S × List O)} {result : T × List O}
    {next : S → Option (S × List O)} {after : T → T × List O} (front : Matches related first result)
    (back : ∀ state, related state result.1 → Matches related (next state) (after result.1)) :
    Matches related (tryThen first next) (Runs.andThen result after) := by
  obtain ⟨middle, reached, held⟩ := front
  obtain ⟨last, finished, held⟩ := back middle held
  exact ⟨last, by simp [tryThen, reached, finished, Runs.andThen], held⟩

/-- Step lemma to run lemma: where every step matches, every run matches. -/
theorem tryRun_matches {step : S → I → Option (S × List O)} {model : T → I → T × List O}
    {inputs : List I}
    (each : ∀ input ∈ inputs, ∀ state other, related state other →
      Matches related (step state input) (model other input))
    {state : S} {other : T} (initial : related state other) :
    Matches related (tryRun step state inputs) (Runs.run model other inputs) := by
  induction inputs generalizing state other with
  | nil => exact matches_some initial []
  | cons input rest ih =>
    change Matches related (tryThen (step state input) (fun next => tryRun step next rest))
      (Runs.andThen (model other input) (fun next => Runs.run model next rest))
    apply (each input List.mem_cons_self state other initial).andThen
    intro next held
    exact ih (fun later member => each later (List.mem_cons_of_mem _ member)) held

end Refinement
