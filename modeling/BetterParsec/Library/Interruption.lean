import Mathlib

set_option autoImplicit false
set_option linter.all false

/-!
# Interruptible programs

A program acts on a state in atomic actions, any of which may fail and before any
of which it may be interrupted for good. An interrupted action either has not
happened or has left its traces. A triple speaks of the state a program returns in
and of the state it is stopped in, by a failure or by the interruption.
-/

namespace Interruption

inductive Stop (E : Type) where
  | failed (error : E)
  | interrupted
  deriving DecidableEq

-- `left` counts the actions that still happen; `none` is a run without interruption.
structure Cut where
  left : Option Nat
  torn : Bool

-- At least `count` actions happen.
def Cut.Reaches (cut : Cut) (count : Nat) : Prop := ∀ left ∈ cut.left, count ≤ left

-- What is left of a cut after `count` actions.
def Cut.past (cut : Cut) (count : Nat) : Cut := { cut with left := cut.left.map (· - count) }

structure World (S : Type) where
  state : S
  cut : Cut

abbrev Prog (S E A : Type) := ExceptT (Stop E) (StateM (World S)) A

variable {S E A B : Type}

def observe (read : S → A) : Prog S E A := fun world => (.ok (read world.state), world)

def attempt (read : S → Except E A) : Prog S E A := fun world =>
  match read world.state with
  | .ok value => (.ok value, world)
  | .error error => (.error (.failed error), world)

def atomic (act : S → Except E S) (traces : S → S) : Prog S E Unit := fun world =>
  match world.cut.left with
  | some 0 =>
      (.error .interrupted,
        { world with state := if world.cut.torn then traces world.state else world.state })
  | left =>
      match act world.state with
      | .ok next => (.ok (), ⟨next, { world.cut with left := left.map (· - 1) }⟩)
      | .error error => (.error (.failed error), world)

def Stop.map {F : Type} (change : E → F) : Stop E → Stop F
  | failed error => .failed (change error)
  | interrupted => .interrupted

-- The errors of the program in the terms of its caller.
def withContext {F : Type} (change : E → F) (prog : Prog S E A) : Prog S F A := fun world =>
  match prog world with
  | (.ok value, after) => (.ok value, after)
  | (.error stop, after) => (.error (stop.map change), after)

def execute (prog : Prog S E A) (state : S) (cut : Cut) : Except (Stop E) A × S :=
  let (result, world) := prog.run ⟨state, cut⟩
  (result, world.state)

-- From a state in `pre` the program returns with `post` or is stopped in `stopped`.
def Triple (pre : S → Prop) (prog : Prog S E A) (post : A → S → Prop) (stopped : S → Prop) :
    Prop :=
  ∀ world, pre world.state →
    (∀ value after, prog world = (.ok value, after) → post value after.state) ∧
      ∀ stop after, prog world = (.error stop, after) → stopped after.state

theorem attempt_of_ok {read : S → Except E A} {world : World S} {value : A}
    (accepted : read world.state = .ok value) :
    (attempt read : Prog S E A) world = (.ok value, world) := by
  rw [attempt, accepted]

theorem bind_of_ok {first : Prog S E A} {next : A → Prog S E B} {world after : World S} {value : A}
    (ran : first world = (.ok value, after)) : (first >>= next) world = next value after := by
  simp only [Bind.bind, ExceptT.bind, ExceptT.mk, StateT.bind, ran]
  rfl

theorem bind_of_error {first : Prog S E A} {next : A → Prog S E B} {world after : World S}
    {stop : Stop E} (ran : first world = (.error stop, after)) :
    (first >>= next) world = (.error stop, after) := by
  simp only [Bind.bind, ExceptT.bind, ExceptT.mk, StateT.bind, ran]
  rfl

namespace Triple

variable {pre : S → Prop} {stopped : S → Prop}

theorem execute_ok {prog : Prog S E A} {post : A → S → Prop}
    (triple : Triple pre prog post stopped) {state after : S} {cut : Cut} {value : A}
    (holds : pre state) (ran : execute prog state cut = (.ok value, after)) :
    post value after := by
  have returned : (prog ⟨state, cut⟩).1 = .ok value := congrArg Prod.fst ran
  have final : (prog ⟨state, cut⟩).2.state = after := congrArg Prod.snd ran
  exact final ▸ (triple ⟨state, cut⟩ holds).1 value _ (Prod.ext returned rfl)

/-- Where returning and being stopped both leave `invariant`, every execution does. -/
theorem execute_keeps {prog : Prog S E A} {invariant : S → Prop}
    (triple : Triple pre prog (fun _ => invariant) invariant) {state : S} (cut : Cut)
    (holds : pre state) : invariant (execute prog state cut).2 := by
  have both := triple ⟨state, cut⟩ holds
  cases result : (prog ⟨state, cut⟩).1 with
  | ok value => exact both.1 value _ (Prod.ext result rfl)
  | error stop => exact both.2 stop _ (Prod.ext result rfl)

theorem pure {post : A → S → Prop} (value : A) (holds : ∀ state, pre state → post value state) :
    Triple pre (Pure.pure value : Prog S E A) post stopped := by
  intro world start
  refine ⟨fun other after ran => ?_, fun stop after ran => ?_⟩
  · obtain ⟨same, rfl⟩ := Prod.mk.inj ran
    exact Except.ok.inj same ▸ holds _ start
  · exact nomatch (Prod.mk.inj ran).1

theorem bind {first : Prog S E A} {next : A → Prog S E B} {middle : A → S → Prop}
    {post : B → S → Prop} (head : Triple pre first middle stopped)
    (tail : ∀ value, Triple (middle value) (next value) post stopped) :
    Triple pre (first >>= next) post stopped := by
  intro world start
  have both := head world start
  cases ran : first world with
  | mk result after =>
    cases result with
    | ok value =>
      rw [bind_of_ok ran]
      exact tail value after (both.1 value after ran)
    | error stop =>
      rw [bind_of_error ran]
      refine ⟨fun value later same => ?_, fun other later same => ?_⟩
      · exact nomatch (Prod.mk.inj same).1
      · obtain ⟨-, rfl⟩ := Prod.mk.inj same
        exact both.2 stop after ran

theorem observe (read : S → A) :
    Triple pre (observe read : Prog S E A) (fun value state => pre state ∧ read state = value)
      stopped := by
  intro world start
  refine ⟨fun value after ran => ?_, fun stop after ran => ?_⟩
  · obtain ⟨same, rfl⟩ := Prod.mk.inj ran
    exact ⟨start, Except.ok.inj same⟩
  · exact nomatch (Prod.mk.inj ran).1

theorem attempt (read : S → Except E A) (safe : ∀ state, pre state → stopped state) :
    Triple pre (attempt read) (fun value state => pre state ∧ read state = .ok value) stopped := by
  intro world start
  simp only [Interruption.attempt]
  cases result : read world.state with
  | ok value =>
    refine ⟨fun other after ran => ?_, fun stop after ran => ?_⟩
    · obtain ⟨same, rfl⟩ := Prod.mk.inj ran
      exact ⟨start, Except.ok.inj same ▸ result⟩
    · exact nomatch (Prod.mk.inj ran).1
  | error error =>
    refine ⟨fun other after ran => ?_, fun stop after ran => ?_⟩
    · exact nomatch (Prod.mk.inj ran).1
    · obtain ⟨-, rfl⟩ := Prod.mk.inj ran
      exact safe _ start

theorem atomic {act : S → Except E S} {traces : S → S} {post : Unit → S → Prop}
    (done : ∀ state next, pre state → act state = .ok next → post () next)
    (safe : ∀ state, pre state → stopped state)
    (torn : ∀ state, pre state → stopped (traces state)) :
    Triple pre (atomic act traces) post stopped := by
  intro world start
  simp only [Interruption.atomic]
  split
  · refine ⟨fun _ _ ran => (nomatch (Prod.mk.inj ran).1), fun stop after ran => ?_⟩
    obtain ⟨-, rfl⟩ := Prod.mk.inj ran
    split_ifs
    · exact torn _ start
    · exact safe _ start
  · cases result : act world.state with
    | ok next =>
      refine ⟨fun _ after ran => ?_, fun _ _ ran => nomatch (Prod.mk.inj ran).1⟩
      obtain ⟨-, rfl⟩ := Prod.mk.inj ran
      exact done _ next start result
    | error error =>
      refine ⟨fun _ _ ran => (nomatch (Prod.mk.inj ran).1), fun stop after ran => ?_⟩
      obtain ⟨-, rfl⟩ := Prod.mk.inj ran
      exact safe _ start

theorem ite {condition : Prop} [Decidable condition] {yes no : Prog S E A} {post : A → S → Prop}
    (positive : condition → Triple pre yes post stopped)
    (negative : ¬ condition → Triple pre no post stopped) :
    Triple pre (if condition then yes else no) post stopped := by
  split_ifs with holds
  · exact positive holds
  · exact negative holds

theorem weaken {prog : Prog S E A} {weaker : S → Prop} {post : A → S → Prop}
    (triple : Triple weaker prog post stopped) (implied : ∀ state, pre state → weaker state) :
    Triple pre prog post stopped :=
  fun world start => triple world (implied _ start)

theorem relax {prog : Prog S E A} {stronger post : A → S → Prop}
    (triple : Triple pre prog stronger stopped)
    (implied : ∀ value state, stronger value state → post value state) :
    Triple pre prog post stopped :=
  fun world start =>
    ⟨fun value after ran => implied value _ ((triple world start).1 value after ran),
      (triple world start).2⟩

/-- What the precondition says of no state in particular may be assumed. -/
theorem assume {prog : Prog S E A} {fact : Prop} {post : A → S → Prop}
    (implied : ∀ state, pre state → fact) (triple : fact → Triple pre prog post stopped) :
    Triple pre prog post stopped :=
  fun world start => triple (implied _ start) world start

theorem withContext {F : Type} {prog : Prog S E A} {post : A → S → Prop} (change : E → F)
    (triple : Triple pre prog post stopped) :
    Triple pre (withContext change prog) post stopped := by
  intro world start
  have both := triple world start
  simp only [Interruption.withContext]
  cases ran : prog world with
  | mk result last =>
    cases result with
    | ok value =>
      refine ⟨fun other after same => ?_, fun stop after same => (nomatch (Prod.mk.inj same).1)⟩
      obtain ⟨value', rfl⟩ := Prod.mk.inj same
      exact Except.ok.inj value' ▸ both.1 value last ran
    | error stop =>
      refine ⟨fun other after same => (nomatch (Prod.mk.inj same).1), fun other after same => ?_⟩
      obtain ⟨-, rfl⟩ := Prod.mk.inj same
      exact both.2 stop last ran

end Triple

theorem Cut.reaches_add {cut : Cut} {first second : Nat} :
    cut.Reaches (first + second) ↔ cut.Reaches first ∧ (cut.past first).Reaches second := by
  obtain ⟨left, torn⟩ := cut
  cases left with
  | none => simp [Reaches, past]
  | some left =>
    simp [Reaches, past]
    omega

theorem Cut.past_add (cut : Cut) (first second : Nat) :
    cut.past (first + second) = (cut.past first).past second := by
  obtain ⟨left, torn⟩ := cut
  cases left <;> simp [past, Nat.sub_add_eq]

-- The cut does not tear the action after `count` others.
def Cut.Misses (cut : Cut) (count : Nat) : Prop :=
  cut.Reaches count → ¬(cut.torn = true ∧ (cut.past count).left = some 0)

theorem Cut.misses_iff {cut : Cut} {count : Nat} :
    cut.Misses count ↔ ¬(cut.torn = true ∧ cut.left = some count) := by
  obtain ⟨left, torn⟩ := cut
  cases left with
  | none => simp [Misses, past]
  | some left =>
    simp only [Misses, Reaches, past, Option.map_some, Option.some.injEq, Option.mem_def,
      forall_eq']
    constructor
    · rintro misses ⟨isTorn, rfl⟩
      exact misses (Nat.le_refl _) ⟨isTorn, Nat.sub_self _⟩
    · rintro misses reaches ⟨isTorn, done⟩
      exact misses ⟨isTorn, by omega⟩

theorem Cut.misses_past {cut : Cut} {first second : Nat} :
    (cut.Reaches first → (cut.past first).Misses second) ↔ cut.Misses (first + second) := by
  unfold Misses
  rw [reaches_add, past_add]
  exact and_imp.symm

-- Without an interruption the program returns `value` in `next` after `count` actions; an earlier
-- interruption stops it.
structure Completes (prog : Prog S E A) (state : S) (value : A) (next : S) (count : Nat) :
    Prop where
  ends : ∀ cut : Cut, cut.Reaches count → prog ⟨state, cut⟩ = (.ok value, ⟨next, cut.past count⟩)
  stops : ∀ cut : Cut, ¬cut.Reaches count →
    ∃ after, prog ⟨state, cut⟩ = (.error .interrupted, after)

-- However it is interrupted, the program does not return.
def Fails (prog : Prog S E A) (state : S) : Prop :=
  ∀ cut : Cut, ∃ stop after, prog ⟨state, cut⟩ = (.error stop, after)

namespace Completes

theorem none {prog : Prog S E A} {state : S} {value : A} {next : S}
    (same : ∀ cut, prog ⟨state, cut⟩ = (.ok value, ⟨next, cut⟩)) :
    Completes prog state value next 0 where
  ends cut _ := by
    obtain ⟨left, torn⟩ := cut
    rw [same]
    cases left <;> rfl
  stops cut short := absurd (fun _ _ => Nat.zero_le _) short

theorem pure (value : A) (state : S) :
    Completes (Pure.pure value : Prog S E A) state value state 0 :=
  .none fun _ => rfl

theorem atomic {act : S → Except E S} {traces : S → S} {state next : S}
    (acts : act state = .ok next) : Completes (atomic act traces) state () next 1 where
  ends cut reaches := by
    obtain ⟨left, torn⟩ := cut
    cases left with
    | none => simp only [Interruption.atomic, acts, Cut.past]
    | some left =>
      cases left with
      | zero => exact absurd (reaches 0 rfl) (by omega)
      | succ left => simp only [Interruption.atomic, acts, Cut.past]
  stops cut short := by
    obtain ⟨left, torn⟩ := cut
    cases left with
    | none => exact absurd (fun _ given => nomatch given) short
    | some left =>
      cases left with
      | zero => exact ⟨_, rfl⟩
      | succ left => exact absurd (fun _ given => by cases given; omega) short

theorem bind {first : Prog S E A} {next : A → Prog S E B} {state middle last : S} {value : A}
    {result : B} {count more : Nat} (head : Completes first state value middle count)
    (tail : Completes (next value) middle result last more) :
    Completes (first >>= next) state result last (count + more) where
  ends cut reaches := by
    obtain ⟨early, late⟩ := Cut.reaches_add.mp reaches
    rw [bind_of_ok (head.ends cut early), tail.ends _ late, Cut.past_add]
  stops cut short := by
    by_cases early : cut.Reaches count
    · rw [bind_of_ok (head.ends cut early)]
      exact tail.stops _ fun late => short (Cut.reaches_add.mpr ⟨early, late⟩)
    · obtain ⟨after, ran⟩ := head.stops cut early
      exact ⟨after, bind_of_error ran⟩

theorem observe_bind {read : S → A} {next : A → Prog S E B} {state last : S} {result : B}
    {count : Nat} (tail : Completes (next (read state)) state result last count) :
    Completes (observe read >>= next) state result last count := by
  have head : Completes (observe read : Prog S E A) state (read state) state 0 := .none fun _ => rfl
  simpa using head.bind tail

theorem attempt_bind {read : S → Except E A} {next : A → Prog S E B} {state last : S} {value : A}
    {result : B} {count : Nat} (reads : read state = .ok value)
    (tail : Completes (next value) state result last count) :
    Completes (attempt read >>= next) state result last count := by
  have head : Completes (attempt read) state value state 0 :=
    .none fun _ => by simp only [attempt, reads]
  simpa using head.bind tail

theorem execute {prog : Prog S E A} {state : S} {value : A} {next : S} {count : Nat}
    (completes : Completes prog state value next count) (torn : Bool) :
    execute prog state ⟨Option.none, torn⟩ = (.ok value, next) := by
  have ran := completes.ends ⟨Option.none, torn⟩ fun _ given => nomatch given
  simp only [Interruption.execute, ExceptT.run, ran]

/-- Where the first part leaves `good` however it is interrupted, the rest decides. -/
theorem bind_leaves {first : Prog S E A} {next : A → Prog S E B} {state middle : S} {value : A}
    {count : Nat} {good : S → Prop} (head : Completes first state value middle count)
    (quiet : Triple good first (fun _ => good) good) (start : good state) (cut : Cut) :
    good ((first >>= next) ⟨state, cut⟩).2.state ↔
      (cut.Reaches count → good (next value ⟨middle, cut.past count⟩).2.state) := by
  by_cases early : cut.Reaches count
  · rw [bind_of_ok (head.ends cut early)]
    exact ⟨fun holds _ => holds, fun holds => holds early⟩
  · obtain ⟨after, ran⟩ := head.stops cut early
    rw [bind_of_error ran]
    exact iff_of_true ((quiet ⟨state, cut⟩ start).2 _ after ran) fun late => absurd late early

/-- An action whose traces are not good spoils the state exactly if it is interrupted. -/
theorem atomic_leaves {act : S → Except E S} {traces : S → S} {rest : Unit → Prog S E A}
    {state next : S} {good : S → Prop} (acts : act state = .ok next) (start : good state)
    (spoils : ¬good (traces state)) (cut : Cut) :
    good ((Interruption.atomic act traces >>= rest) ⟨state, cut⟩).2.state ↔
      ¬(cut.torn = true ∧ cut.left = some 0) ∧
        (cut.Reaches 1 → good (rest () ⟨next, cut.past 1⟩).2.state) := by
  have head : Completes (Interruption.atomic act traces) state () next 1 := .atomic acts
  by_cases early : cut.Reaches 1
  · have later : cut.left ≠ some 0 := fun given => absurd (early 0 given) (by omega)
    rw [bind_of_ok (head.ends cut early)]
    simp [later, early]
  · obtain ⟨left, torn⟩ := cut
    have now : left = some 0 := by
      cases left with
      | none => exact absurd (fun _ given => nomatch given) early
      | some left =>
        cases left with
        | zero => rfl
        | succ left => exact absurd (fun _ given => by cases given; omega) early
    subst now
    have stopped : (Interruption.atomic act traces >>= rest) ⟨state, ⟨some 0, torn⟩⟩ =
        (.error .interrupted, ⟨if torn then traces state else state, ⟨some 0, torn⟩⟩) :=
      bind_of_error rfl
    rw [stopped]
    cases torn <;> simp [early, spoils, start]

end Completes

namespace Fails

theorem atomic {act : S → Except E S} {traces : S → S} {state : S} {error : E}
    (fails : act state = .error error) : Fails (atomic act traces) state := by
  intro cut
  obtain ⟨left, torn⟩ := cut
  cases left with
  | none => exact ⟨.failed error, _, by simp only [Interruption.atomic, fails]; rfl⟩
  | some left =>
    cases left with
    | zero => exact ⟨_, _, rfl⟩
    | succ left => exact ⟨.failed error, _, by simp only [Interruption.atomic, fails]; rfl⟩

theorem bind_leaves {first : Prog S E A} {next : A → Prog S E B} {state : S} {good : S → Prop}
    (head : Fails first state) (quiet : Triple good first (fun _ => good) good) (start : good state)
    (cut : Cut) : good ((first >>= next) ⟨state, cut⟩).2.state := by
  obtain ⟨stop, after, ran⟩ := head cut
  rw [bind_of_error ran]
  exact (quiet ⟨state, cut⟩ start).2 stop after ran

end Fails

end Interruption
