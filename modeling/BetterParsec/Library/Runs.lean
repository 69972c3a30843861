import Mathlib

set_option autoImplicit false
set_option linter.all false

/-!
# Runs of a state machine with output

A machine is a step function that returns the next state and what it emitted.
`run` feeds a list of inputs and concatenates the outputs; an invariant may
speak about the state together with everything emitted so far.
-/

namespace Runs

variable {S I O : Type}

def run (step : S → I → S × List O) : S → List I → S × List O
  | state, [] => (state, [])
  | state, input :: rest =>
      let (next, emitted) := step state input
      let (last, later) := run step next rest
      (last, emitted ++ later)

-- Run `next` where `first` ended, keeping the output of both.
def andThen (first : S × List O) (next : S → S × List O) : S × List O :=
  ((next first.1).1, first.2 ++ (next first.1).2)

-- Every input meets `guard` in the state and after the output it arrives at.
def Along (step : S → I → S × List O) (guard : List O → S → I → Prop) :
    List O → S → List I → Prop
  | _, _, [] => True
  | seen, state, input :: rest =>
      guard seen state input ∧
        Along step guard (seen ++ (step state input).2) (step state input).1 rest

instance decidableAlong (step : S → I → S × List O) (guard : List O → S → I → Prop)
    [∀ seen state input, Decidable (guard seen state input)] (seen : List O) (state : S)
    (inputs : List I) : Decidable (Along step guard seen state inputs) :=
  match inputs with
  | [] => .isTrue trivial
  | input :: rest =>
      have := decidableAlong step guard (seen ++ (step state input).2) (step state input).1 rest
      inferInstanceAs (Decidable (_ ∧ _))

theorem Along.and {step : S → I → S × List O} {first second : List O → S → I → Prop}
    {seen : List O} {state : S} {inputs : List I} (left : Along step first seen state inputs)
    (right : Along step second seen state inputs) :
    Along step (fun seen state input => first seen state input ∧ second seen state input)
      seen state inputs := by
  induction inputs generalizing seen state with
  | nil => trivial
  | cons input rest ih => exact ⟨⟨left.1, right.1⟩, ih left.2 right.2⟩

theorem Along.of_prefix {step : S → I → S × List O} {guard : List O → S → I → Prop}
    {seen : List O} {state : S} {inputs taken : List I}
    (along : Along step guard seen state inputs) (front : taken <+: inputs) :
    Along step guard seen state taken := by
  induction taken generalizing seen state inputs with
  | nil => trivial
  | cons input taken ih =>
    cases inputs with
    | nil => exact absurd (List.prefix_nil.mp front) (List.cons_ne_nil input taken)
    | cons other rest =>
      obtain ⟨rfl, within⟩ := List.cons_prefix_cons.mp front
      exact ⟨along.1, ih along.2 within⟩

theorem along_of_forall {step : S → I → S × List O} {guard : List O → S → I → Prop}
    {inputs : List I} (each : ∀ input ∈ inputs, ∀ seen state, guard seen state input)
    (seen : List O) (state : S) : Along step guard seen state inputs := by
  induction inputs generalizing seen state with
  | nil => trivial
  | cons input rest ih =>
    exact ⟨each input List.mem_cons_self seen state,
      ih (fun other member => each other (List.mem_cons_of_mem _ member)) _ _⟩

theorem run_append (step : S → I → S × List O) (state : S) (first second : List I) :
    run step state (first ++ second) =
      ((run step (run step state first).1 second).1,
        (run step state first).2 ++ (run step (run step state first).1 second).2) := by
  induction first generalizing state with
  | nil => simp [run]
  | cons input rest ih => simp [run, ih, List.append_assoc]

/-- Where an invariant leaves the output of a step to its input alone, a run puts these outputs
together. -/
theorem run_eq_flatMap (step : S → I → S × List O) (invariant : S → Prop) (output : I → List O)
    (preserved : ∀ state input, invariant state → invariant (step state input).1)
    (exact : ∀ state input, invariant state → (step state input).2 = output input)
    {state : S} (inputs : List I) (initial : invariant state) :
    invariant (run step state inputs).1 ∧ (run step state inputs).2 = inputs.flatMap output := by
  induction inputs generalizing state with
  | nil => exact ⟨initial, rfl⟩
  | cons input rest ih =>
    obtain ⟨kept, later⟩ := ih (preserved state input initial)
    refine ⟨kept, ?_⟩
    rw [run, List.flatMap_cons, ← exact state input initial, ← later]

/-- Step lemma to run lemma: what every guarded step keeps, every guarded run keeps. -/
theorem run_invariant (step : S → I → S × List O) (guard : List O → S → I → Prop)
    (invariant : List O → S → Prop)
    (preserved : ∀ seen state input, invariant seen state → guard seen state input →
      invariant (seen ++ (step state input).2) (step state input).1)
    (seen : List O) (state : S) (inputs : List I) (initial : invariant seen state)
    (guarded : Along step guard seen state inputs) :
    invariant (seen ++ (run step state inputs).2) (run step state inputs).1 := by
  induction inputs generalizing seen state with
  | nil => simpa [run] using initial
  | cons input rest ih =>
    have later := ih _ _ (preserved seen state input initial guarded.1) guarded.2
    simpa [run, List.append_assoc] using later

/-- The rule for a guard that is met by every input in every state. -/
theorem run_invariant_of_forall (step : S → I → S × List O) (invariant : List O → S → Prop)
    (preserved : ∀ seen state input, invariant seen state →
      invariant (seen ++ (step state input).2) (step state input).1)
    (seen : List O) (state : S) (inputs : List I) (initial : invariant seen state) :
    invariant (seen ++ (run step state inputs).2) (run step state inputs).1 := by
  induction inputs generalizing seen state with
  | nil => simpa [run] using initial
  | cons input rest ih =>
    have later := ih _ _ (preserved seen state input initial)
    simpa [run, List.append_assoc] using later

/-- What an invariant gives of every guarded step, it gives along the run. -/
theorem along_of_invariant (step : S → I → S × List O) (guard : List O → S → I → Prop)
    {given : List O → S → I → Prop} (invariant : List O → S → Prop)
    (preserved : ∀ seen state input, invariant seen state → guard seen state input →
      invariant (seen ++ (step state input).2) (step state input).1)
    (gives : ∀ seen state input, invariant seen state → guard seen state input →
      given seen state input)
    (seen : List O) (state : S) (inputs : List I) (initial : invariant seen state)
    (guarded : Along step guard seen state inputs) : Along step given seen state inputs := by
  induction inputs generalizing seen state with
  | nil => trivial
  | cons input rest ih =>
    exact ⟨gives seen state input initial guarded.1,
      ih _ _ (preserved seen state input initial guarded.1) guarded.2⟩

/-- Where an invariant makes the guard of a step say that the next state is good, a run is guarded
exactly if every state it goes through is good. -/
theorem along_iff_states (step : S → I → S × List O) (good invariant : S → Prop)
    {guard : List O → S → I → Prop}
    (preserved : ∀ state input, invariant state → invariant (step state input).1)
    (exact : ∀ seen state input, invariant state → good state →
      (good (step state input).1 ↔ guard seen state input))
    {seen : List O} {state : S} {inputs : List I} (initial : invariant state) (start : good state) :
    (∀ taken, taken <+: inputs → good (run step state taken).1) ↔
      Along step guard seen state inputs := by
  induction inputs generalizing seen state with
  | nil =>
    refine ⟨fun _ => trivial, fun _ taken front => ?_⟩
    rw [List.prefix_nil.mp front]
    exact start
  | cons input rest ih =>
    have next := exact seen state input initial start
    constructor
    · intro reached
      have first : good (step state input).1 :=
        reached [input] ((List.prefix_cons_inj input).mpr (List.nil_prefix))
      refine ⟨next.mp first, (ih (preserved state input initial) first).mp fun taken front => ?_⟩
      exact reached (input :: taken) ((List.prefix_cons_inj input).mpr front)
    · intro guarded taken front
      have first := next.mpr guarded.1
      cases taken with
      | nil => exact start
      | cons other later =>
        obtain ⟨rfl, within⟩ := List.cons_prefix_cons.mp front
        exact (ih (preserved state other initial) first).mpr guarded.2 later within

/-- Two guards that an invariant makes equal are met by the same runs, as long as what a run emits
is allowed. -/
theorem along_iff_along (step : S → I → S × List O) {first second : List O → S → I → Prop}
    (allowed : List O → Prop) (invariant : List O → S → Prop)
    (closed : ∀ seen more, allowed (seen ++ more) → allowed seen)
    (preserved : ∀ seen state input, allowed (seen ++ (step state input).2) →
      invariant seen state → invariant (seen ++ (step state input).2) (step state input).1)
    (equal : ∀ seen state input, allowed (seen ++ (step state input).2) → invariant seen state →
      (first seen state input ↔ second seen state input))
    {seen : List O} {state : S} {inputs : List I} (initial : invariant seen state)
    (within : allowed (seen ++ (run step state inputs).2)) :
    Along step first seen state inputs ↔ Along step second seen state inputs := by
  induction inputs generalizing seen state with
  | nil => exact Iff.rfl
  | cons input rest ih =>
    rw [run, ← List.append_assoc] at within
    have here := closed _ _ within
    exact and_congr (equal seen state input here initial)
      (ih (preserved seen state input here initial) within)

-- Every output meets `property` after the outputs before it.
def Emissions (property : List O → O → Prop) (output : List O) : Prop :=
  ∀ before event after, output = before ++ event :: after → property before event

theorem emissions_nil (property : List O → O → Prop) : Emissions property [] := by
  intro before event after split
  simp at split

-- Where a list with a last element is split at one, it is the last or stands in front of it.
theorem concat_split {before after rest : List O} {event last : O}
    (split : rest ++ [last] = before ++ event :: after) :
    (after = [] ∧ rest = before ∧ last = event) ∨
      ∃ front, after = front ++ [last] ∧ rest = before ++ event :: front := by
  rcases List.eq_nil_or_concat after with rfl | ⟨front, final, rfl⟩
  · obtain ⟨same, found⟩ := List.append_inj' split rfl
    exact .inl ⟨rfl, same, (List.cons.inj found).1⟩
  · rw [List.concat_eq_append, ← List.cons_append, ← List.append_assoc] at split
    obtain ⟨same, found⟩ := List.append_inj' split rfl
    rw [List.concat_eq_append, (List.cons.inj found).1]
    exact .inr ⟨front, rfl, same⟩

theorem Emissions.concat {property : List O → O → Prop} {output : List O} {event : O}
    (earlier : Emissions property output) (last : property output event) :
    Emissions property (output ++ [event]) := by
  intro before other after split
  rcases concat_split split with ⟨-, rfl, rfl⟩ | ⟨front, -, same⟩
  · exact last
  · exact earlier before other front same

theorem Emissions.append {property : List O → O → Prop} {output more : List O}
    (earlier : Emissions property output)
    (later : ∀ before, ∀ event ∈ more, property before event) :
    Emissions property (output ++ more) := by
  induction more generalizing output with
  | nil => simpa using earlier
  | cons event rest ih =>
    have extended := ih (earlier.concat (later output event List.mem_cons_self))
      (fun before other member => later before other (List.mem_cons_of_mem _ member))
    simpa using extended

-- `Emissions` of what follows the outputs in `seen`.
def EmissionsAfter (property : List O → O → Prop) : List O → List O → Prop
  | _, [] => True
  | seen, event :: rest => property seen event ∧ EmissionsAfter property (seen ++ [event]) rest

instance decidableEmissionsAfter (property : List O → O → Prop)
    [∀ seen event, Decidable (property seen event)] (seen more : List O) :
    Decidable (EmissionsAfter property seen more) :=
  match more with
  | [] => .isTrue trivial
  | event :: rest =>
      have := decidableEmissionsAfter property (seen ++ [event]) rest
      inferInstanceAs (Decidable (_ ∧ _))

@[simp] theorem emissionsAfter_append (property : List O → O → Prop) (seen first second : List O) :
    EmissionsAfter property seen (first ++ second) ↔
      EmissionsAfter property seen first ∧ EmissionsAfter property (seen ++ first) second := by
  induction first generalizing seen with
  | nil => simp [EmissionsAfter]
  | cons event rest ih => simp [EmissionsAfter, ih, and_assoc]

theorem emissionsAfter_of_forall {property : List O → O → Prop} {more : List O}
    (each : ∀ seen, ∀ event ∈ more, property seen event) (seen : List O) :
    EmissionsAfter property seen more := by
  induction more generalizing seen with
  | nil => trivial
  | cons event rest ih =>
    exact ⟨each seen event List.mem_cons_self,
      ih (fun seen other member => each seen other (List.mem_cons_of_mem _ member)) _⟩

theorem emissionsAfter_each (property : O → Prop) (seen more : List O) :
    EmissionsAfter (fun _ event => property event) seen more ↔ ∀ event ∈ more, property event := by
  induction more generalizing seen with
  | nil => simp [EmissionsAfter]
  | cons event rest ih => rw [EmissionsAfter, ih, List.forall_mem_cons]

theorem emissions_iff_after (property : List O → O → Prop) (output : List O) :
    Emissions property output ↔ EmissionsAfter property [] output := by
  constructor
  · intro emitted
    induction output using List.reverseRecOn with
    | nil => trivial
    | append_singleton rest event ih =>
      rw [emissionsAfter_append]
      refine ⟨ih fun before other after split => ?_, emitted rest event [] rfl, trivial⟩
      exact emitted before other (after ++ [event]) (by rw [split]; simp)
  · intro emitted before event after split
    rw [split, emissionsAfter_append] at emitted
    exact emitted.2.1

/-- The rule for an invariant that only guarded steps keep. -/
theorem emissions_run_iff_guarded (step : S → I → S × List O) {guard : List O → S → I → Prop}
    {property : List O → O → Prop} (invariant : List O → S → Prop)
    (preserved : ∀ seen state input, invariant seen state → guard seen state input →
      invariant (seen ++ (step state input).2) (step state input).1)
    (exact : ∀ seen state input, invariant seen state →
      (EmissionsAfter property seen (step state input).2 ↔ guard seen state input))
    {seen : List O} {state : S} (inputs : List I) (initial : invariant seen state) :
    EmissionsAfter property seen (run step state inputs).2 ↔
      Along step guard seen state inputs := by
  induction inputs generalizing seen state with
  | nil => exact Iff.rfl
  | cons input rest ih =>
    rw [run, emissionsAfter_append, exact seen state input initial]
    exact and_congr_right fun met => ih (preserved seen state input initial met)

/-- Where an invariant makes the guard of a step say that its output is good, the output of a run
is good exactly if the run is guarded. -/
theorem emissions_run_iff (step : S → I → S × List O) {guard : List O → S → I → Prop}
    {property : List O → O → Prop} (invariant : List O → S → Prop)
    (preserved : ∀ seen state input, invariant seen state →
      invariant (seen ++ (step state input).2) (step state input).1)
    (exact : ∀ seen state input, invariant seen state →
      (EmissionsAfter property seen (step state input).2 ↔ guard seen state input))
    {seen : List O} {state : S} (inputs : List I) (initial : invariant seen state) :
    EmissionsAfter property seen (run step state inputs).2 ↔
      Along step guard seen state inputs :=
  emissions_run_iff_guarded step invariant
    (fun seen state input holds _ => preserved seen state input holds) exact inputs initial

-- A finite sequence of moves of a transition relation, with what they emitted.
inductive Path (move : S → List O → S → Prop) : S → List O → S → Prop where
  | done (state : S) : Path move state [] state
  | step {first middle last : S} {emitted later : List O} (head : move first emitted middle)
      (rest : Path move middle later last) : Path move first (emitted ++ later) last

namespace Path

variable {move : S → List O → S → Prop}

theorem single {first last : S} {emitted : List O} (head : move first emitted last) :
    Path move first emitted last := by
  have path := Path.step head (.done last)
  rwa [List.append_nil] at path

theorem append {first middle last : S} {emitted later : List O}
    (front : Path move first emitted middle) (back : Path move middle later last) :
    Path move first (emitted ++ later) last := by
  induction front with
  | done => exact back
  | step head _ ih =>
    rw [List.append_assoc]
    exact .step head (ih back)

theorem andThen {state : S} {first : S × List O} {next : S → S × List O}
    (front : Path move state first.2 first.1)
    (back : Path move first.1 (next first.1).2 (next first.1).1) :
    Path move state (Runs.andThen first next).2 (Runs.andThen first next).1 :=
  front.append back

/-- A run whose every step is a path is a path. -/
theorem run {step : S → I → S × List O} (inputs : List I)
    (each : ∀ state, ∀ input ∈ inputs, Path move state (step state input).2 (step state input).1)
    (state : S) : Path move state (run step state inputs).2 (run step state inputs).1 := by
  induction inputs generalizing state with
  | nil => exact .done state
  | cons input rest ih =>
    have tail := ih (fun state other member => each state other (List.mem_cons_of_mem _ member))
      (step state input).1
    exact (each state input List.mem_cons_self).append tail

/-- What every move with allowed output keeps, every path with allowed output keeps. -/
theorem keeps_where (allowed : O → Prop) (invariant : List O → S → Prop)
    (preserved : ∀ seen state emitted next, (∀ event ∈ emitted, allowed event) →
      invariant seen state → move state emitted next → invariant (seen ++ emitted) next)
    {first last : S} {emitted : List O} (path : Path move first emitted last)
    (silent : ∀ event ∈ emitted, allowed event) (seen : List O) (initial : invariant seen first) :
    invariant (seen ++ emitted) last := by
  induction path generalizing seen with
  | done => simpa using initial
  | step head _ ih =>
    rw [← List.append_assoc]
    apply ih (fun event member => silent event (List.mem_append_right _ member))
    exact preserved _ _ _ _ (fun event member => silent event (List.mem_append_left _ member))
      initial head

/-- What every move keeps, every path keeps. -/
theorem keeps (invariant : List O → S → Prop)
    (preserved : ∀ seen state emitted next, invariant seen state → move state emitted next →
      invariant (seen ++ emitted) next)
    {first last : S} {emitted : List O} (path : Path move first emitted last) (seen : List O)
    (initial : invariant seen first) : invariant (seen ++ emitted) last :=
  path.keeps_where (fun _ => True) invariant
    (fun seen state emitted next _ held head => preserved seen state emitted next held head)
    (fun _ _ => trivial) seen initial

end Path

end Runs
