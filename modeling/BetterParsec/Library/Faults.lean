import Mathlib

set_option autoImplicit false
set_option linter.all false

/-!
# Programs whose actions fail

A program acts on a state in atomic actions. Each action is done, fails without
effect, or is done as the last one before a crash; the outcomes are given
beforehand, and actions beyond them are done. The states that are passed are
kept. A triple speaks of what the outcomes may be, of every state that is passed,
and of the states in which the program returns and fails.
-/

namespace Faults

inductive Outcome where
  | done
  | fail
  | crash
  deriving DecidableEq

inductive Stop (E : Type) where
  | failed (error : E)
  | crashed
  deriving DecidableEq

structure World (S : Type) where
  state : S
  outcomes : List Outcome
  passed : List S

abbrev Prog (S E A : Type) := ExceptT (Stop E) (StateM (World S)) A

variable {S E A B : Type}

def observe (read : S → A) : Prog S E A := fun world => (.ok (read world.state), world)

def check (verdict : Except E A) : Prog S E A := fun world =>
  match verdict with
  | .ok value => (.ok value, world)
  | .error error => (.error (.failed error), world)

def action (error : E) (act : S → S) : Prog S E Unit := fun world =>
  match world.outcomes with
  | .fail :: rest => (.error (.failed error), { world with outcomes := rest })
  | .crash :: rest =>
      (.error .crashed, ⟨act world.state, rest, world.passed ++ [act world.state]⟩)
  | outcomes =>
      (.ok (), ⟨act world.state, outcomes.tail, world.passed ++ [act world.state]⟩)

-- The part of a program whose actions have these outcomes.
def supply (outcomes : List Outcome) (prog : Prog S E A) : Prog S E A := fun world =>
  let (result, after) := prog { world with outcomes := outcomes }
  (result, { after with outcomes := world.outcomes })

-- A failure is returned; a crash is not.
def settle (prog : Prog S E A) : Prog S E (Except E A) := fun world =>
  match prog world with
  | (.ok value, after) => (.ok (.ok value), after)
  | (.error (.failed error), after) => (.ok (.error error), after)
  | (.error .crashed, after) => (.error .crashed, after)

def execute (prog : Prog S E A) (state : S) : Except (Stop E) A × World S :=
  prog ⟨state, [], []⟩

-- What holds of the result and of the state it comes with.
def Ends (always failed : S → Prop) (post : A → S → Prop) : Except (Stop E) A → S → Prop
  | .ok value, state => post value state
  | .error (.failed _), state => failed state
  | .error .crashed, state => always state

-- From a state in `pre`, with allowed outcomes, only states in `always` are passed; the state at
-- the end is the last one of them.
def Triple (allowed : Outcome → Prop) (always failed : S → Prop) (pre : S → Prop)
    (prog : Prog S E A) (post : A → S → Prop) : Prop :=
  ∀ world, (∀ outcome ∈ world.outcomes, allowed outcome) → pre world.state →
    (∀ outcome ∈ (prog world).2.outcomes, allowed outcome) ∧
      (∃ more, (prog world).2.passed = world.passed ++ more ∧ (∀ state ∈ more, always state) ∧
        (prog world).2.state = more.getLast?.getD world.state) ∧
      Ends always failed post (prog world).1 (prog world).2.state

namespace Triple

variable {allowed : Outcome → Prop} {always failed pre : S → Prop}

theorem pure {post : A → S → Prop} (value : A) (holds : ∀ state, pre state → post value state) :
    Triple allowed always failed pre (Pure.pure value : Prog S E A) post :=
  fun world outcomes start => ⟨outcomes, ⟨[], (List.append_nil _).symm, by simp, rfl⟩, holds _ start⟩

theorem bind {first : Prog S E A} {next : A → Prog S E B} {middle : A → S → Prop}
    {post : B → S → Prop} (head : Triple allowed always failed pre first middle)
    (tail : ∀ value, Triple allowed always failed (middle value) (next value) post) :
    Triple allowed always failed pre (first >>= next) post := by
  intro world outcomes start
  obtain ⟨left, ⟨more, passed, good, last⟩, ends⟩ := head world outcomes start
  cases ran : first world with
  | mk result after =>
    rw [ran] at left passed ends last
    cases result with
    | ok value =>
      have continued : (first >>= next) world = next value after := by
        simp only [Bind.bind, ExceptT.bind, ExceptT.mk, StateT.bind, ran]
        rfl
      rw [continued]
      obtain ⟨least, ⟨later, further, still, final⟩, result⟩ := tail value after left ends
      refine ⟨least, ⟨more ++ later, ?_, ?_, ?_⟩, result⟩
      · rw [further, passed, List.append_assoc]
      · intro state member
        rcases List.mem_append.mp member with early | late
        · exact good state early
        · exact still state late
      · rw [final, List.getLast?_append]
        cases later.getLast? with
        | none => exact last
        | some state => rfl
    | error stop =>
      have ended : (first >>= next) world = (.error stop, after) := by
        simp only [Bind.bind, ExceptT.bind, ExceptT.mk, StateT.bind, ran]
        rfl
      rw [ended]
      refine ⟨left, ⟨more, passed, good, last⟩, ?_⟩
      cases stop with
      | failed error => exact ends
      | crashed => exact ends

theorem observe (read : S → A) :
    Triple allowed always failed pre (observe read : Prog S E A)
      (fun value state => pre state ∧ read state = value) :=
  fun world outcomes start =>
    ⟨outcomes, ⟨[], (List.append_nil _).symm, by simp, rfl⟩, start, rfl⟩

theorem check (verdict : Except E A) (safe : ∀ state, pre state → failed state) :
    Triple allowed always failed pre (check verdict : Prog S E A) (fun _ => pre) := by
  intro world outcomes start
  cases verdict with
  | ok value => exact ⟨outcomes, ⟨[], (List.append_nil _).symm, by simp, rfl⟩, start⟩
  | error error => exact ⟨outcomes, ⟨[], (List.append_nil _).symm, by simp, rfl⟩, safe _ start⟩

theorem action {error : E} {act : S → S} {post : Unit → S → Prop}
    (does : ∀ state, pre state → post () (act state) ∧ always (act state))
    (safe : allowed .fail → ∀ state, pre state → failed state) :
    Triple allowed always failed pre (action error act) post := by
  intro world outcomes start
  obtain ⟨holds, good⟩ := does world.state start
  unfold Faults.action
  split
  next rest given =>
    rw [given] at outcomes
    exact ⟨fun outcome member => outcomes outcome (List.mem_cons_of_mem _ member),
      ⟨[], (List.append_nil _).symm, by simp, rfl⟩, safe (outcomes _ List.mem_cons_self) _ start⟩
  next rest given =>
    rw [given] at outcomes
    exact ⟨fun outcome member => outcomes outcome (List.mem_cons_of_mem _ member),
      ⟨[act world.state], rfl, by simpa using good, rfl⟩, good⟩
  next =>
    exact ⟨fun outcome member => outcomes outcome (List.mem_of_mem_tail member),
      ⟨[act world.state], rfl, by simpa using good, rfl⟩, holds⟩

theorem ite {condition : Prop} [Decidable condition] {yes no : Prog S E A} {post : A → S → Prop}
    (positive : condition → Triple allowed always failed pre yes post)
    (negative : ¬ condition → Triple allowed always failed pre no post) :
    Triple allowed always failed pre (if condition then yes else no) post := by
  split_ifs with holds
  · exact positive holds
  · exact negative holds

theorem weaken {prog : Prog S E A} {weaker : S → Prop} {post : A → S → Prop}
    (triple : Triple allowed always failed weaker prog post)
    (implied : ∀ state, pre state → weaker state) :
    Triple allowed always failed pre prog post :=
  fun world outcomes start => triple world outcomes (implied _ start)

theorem relax {prog : Prog S E A} {stronger post : A → S → Prop}
    (triple : Triple allowed always failed pre prog stronger)
    (implied : ∀ value state, stronger value state → post value state) :
    Triple allowed always failed pre prog post := by
  intro world outcomes start
  obtain ⟨left, passed, ends⟩ := triple world outcomes start
  refine ⟨left, passed, ?_⟩
  cases result : (prog world).1 with
  | ok value =>
    rw [result] at ends
    exact implied value _ ends
  | error stop =>
    rw [result] at ends
    cases stop with
    | failed error => exact ends
    | crashed => exact ends

/-- What the precondition says of no state in particular may be assumed. -/
theorem assume {prog : Prog S E A} {fact : Prop} {post : A → S → Prop}
    (implied : ∀ state, pre state → fact)
    (triple : fact → Triple allowed always failed pre prog post) :
    Triple allowed always failed pre prog post :=
  fun world outcomes start => triple (implied _ start) world outcomes start

theorem choose {I : Type} {each : I → S → Prop} {prog : Prog S E A} {post : A → S → Prop}
    (triple : ∀ choice, Triple allowed always failed (each choice) prog post) :
    Triple allowed always failed (fun state => ∃ choice, each choice state) prog post := by
  rintro world outcomes ⟨choice, start⟩
  exact triple choice world outcomes start

theorem supply {outcomes : List Outcome} {supplied : Outcome → Prop} {prog : Prog S E A}
    {post : A → S → Prop} (given : ∀ outcome ∈ outcomes, supplied outcome)
    (triple : Triple supplied always failed pre prog post) :
    Triple allowed always failed pre (supply outcomes prog) post := by
  intro world others start
  obtain ⟨-, passed, ends⟩ := triple { world with outcomes := outcomes } given start
  exact ⟨others, passed, ends⟩

theorem supply_any {outcomes : List Outcome} {prog : Prog S E A} {post : A → S → Prop}
    (triple : Triple (fun _ => True) always failed pre prog post) :
    Triple allowed always failed pre (Faults.supply outcomes prog) post :=
  supply (fun _ _ => trivial) triple

theorem settle {failed' : S → Prop} {prog : Prog S E A} {post : A → S → Prop}
    (triple : Triple allowed always failed pre prog post) :
    Triple allowed always failed' pre (settle prog)
      (fun result state => match result with
        | .ok value => post value state
        | .error _ => failed state) := by
  intro world outcomes start
  obtain ⟨left, passed, ends⟩ := triple world outcomes start
  unfold Faults.settle
  cases ran : prog world with
  | mk result after =>
    rw [ran] at left passed ends
    cases result with
    | ok value => exact ⟨left, passed, ends⟩
    | error stop =>
      cases stop with
      | failed error => exact ⟨left, passed, ends⟩
      | crashed => exact ⟨left, passed, ends⟩

/-- The states of an execution, and how it ends. -/
theorem execute {prog : Prog S E A} {post : A → S → Prop}
    (triple : Triple allowed always failed pre prog post) {state : S} (start : pre state) :
    (∀ passed ∈ (execute prog state).2.passed, always passed) ∧
      (execute prog state).2.state = (execute prog state).2.passed.getLast?.getD state ∧
      Ends always failed post (execute prog state).1 (execute prog state).2.state := by
  obtain ⟨-, ⟨more, passed, good, last⟩, ends⟩ := triple ⟨state, [], []⟩ (by simp) start
  have all : (Faults.execute prog state).2.passed = more := passed.trans (List.nil_append _)
  rw [all]
  exact ⟨good, last, ends⟩

end Triple

-- Where every action is done, the program returns `value` in `final`.
def Faultless (prog : Prog S E A) (state : S) (value : A) (final : S) : Prop :=
  ∀ outcomes passed, (∀ outcome ∈ outcomes, outcome = .done) →
    ∃ rest more, prog ⟨state, outcomes, passed⟩ = (.ok value, ⟨final, rest, more⟩) ∧
      ∀ outcome ∈ rest, outcome = .done

namespace Faultless

variable {state middle final : S} {value : A}

theorem pure (value : A) (state : S) : Faultless (Pure.pure value : Prog S E A) state value state :=
  fun outcomes passed done => ⟨outcomes, passed, rfl, done⟩

theorem bind {first : Prog S E A} {next : A → Prog S E B} {result : B}
    (head : Faultless first state value middle)
    (tail : Faultless (next value) middle result final) :
    Faultless (first >>= next) state result final := by
  intro outcomes passed done
  obtain ⟨left, more, ran, still⟩ := head outcomes passed done
  obtain ⟨rest, later, ended, least⟩ := tail left more still
  refine ⟨rest, later, ?_, least⟩
  simp only [Bind.bind, ExceptT.bind, ExceptT.mk, StateT.bind, ran]
  exact ended

theorem observe (read : S → A) (state : S) :
    Faultless (observe read : Prog S E A) state (read state) state :=
  fun outcomes passed done => ⟨outcomes, passed, rfl, done⟩

theorem check {verdict : Except E A} (passes : verdict = .ok value) (state : S) :
    Faultless (check verdict) state value state := by
  subst passes
  exact fun outcomes passed done => ⟨outcomes, passed, rfl, done⟩

theorem action {error : E} {act : S → S} (does : act state = final) :
    Faultless (action error act) state () final := by
  subst does
  intro outcomes passed done
  cases outcomes with
  | nil => exact ⟨[], _, rfl, done⟩
  | cons outcome rest =>
    obtain ⟨rfl, later⟩ := List.forall_mem_cons.mp done
    exact ⟨rest, _, rfl, later⟩

theorem supply {outcomes : List Outcome} {prog : Prog S E A}
    (given : ∀ outcome ∈ outcomes, outcome = .done) (inner : Faultless prog state value final) :
    Faultless (supply outcomes prog) state value final := by
  intro others passed done
  obtain ⟨rest, more, ran, -⟩ := inner outcomes passed given
  refine ⟨others, more, ?_, done⟩
  simp only [Faults.supply, ran]

theorem settle {prog : Prog S E A} (inner : Faultless prog state value final) :
    Faultless (settle prog) state (.ok value) final := by
  intro outcomes passed done
  obtain ⟨rest, more, ran, still⟩ := inner outcomes passed done
  refine ⟨rest, more, ?_, still⟩
  simp only [Faults.settle, ran]

theorem execute {prog : Prog S E A} (inner : Faultless prog state value final) :
    (execute prog state).1 = .ok value ∧ (execute prog state).2.state = final := by
  obtain ⟨rest, more, ran, -⟩ := inner [] [] (by simp)
  simp only [Faults.execute, ran, and_self]

end Faultless

end Faults
