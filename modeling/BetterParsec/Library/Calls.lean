import Mathlib

set_option autoImplicit false
set_option linter.all false

/-!
# Programs that call a shared store

A program makes calls and goes on with their answers. Any number of programs run
against one store, one piece of work on one call at a time, so a call is answered
in one step or in several. What a program was told attests what the store was like
at some moment since the program began, and nothing about the store as it is now.
-/

namespace Calls

inductive Program (Op : Type) (Answer : Op → Type) (A : Type) where
  | done (result : A)
  | call (op : Op) (next : Answer op → Program Op Answer A)

abbrev Observation {Op : Type} (Answer : Op → Type) : Type := (op : Op) × Answer op

section Programs

variable {Op E A B : Type} {Answer : Op → Type}

def Program.bind (program : Program Op Answer A) (next : A → Program Op Answer B) :
    Program Op Answer B :=
  match program with
  | .done result => next result
  | .call op rest => .call op fun answer => (rest answer).bind next

instance programMonad : Monad (Program Op Answer) where
  pure := .done
  bind := .bind

-- A program that may fail with an error of `E`.
abbrev Handler (Op : Type) (Answer : Op → Type) (E A : Type) : Type :=
  ExceptT E (Program Op Answer) A

def ask (op : Op) : Handler Op Answer E (Answer op) :=
  Program.call op fun answer => .done (.ok answer)

-- The handler's failure as a value, for a `match` on it.
def attempt (handler : Handler Op Answer E A) : Handler Op Answer E (Except E A) :=
  Program.bind handler fun result => .done (.ok result)

def give (result : Except E A) : Handler Op Answer E A := Program.done result

variable (allowed : List (Observation Answer) → Op → Prop)

/-- Whatever the answers are, each call is allowed after what was observed before it, and the
result is one that the observations justify. -/
def Meets (post : List (Observation Answer) → A → Prop) :
    Program Op Answer A → List (Observation Answer) → Prop
  | .done result, seen => post seen result
  | .call op next, seen =>
    allowed seen op ∧ ∀ answer, Meets post (next answer) (seen ++ [⟨op, answer⟩])

variable {allowed}

theorem Meets.mono {first second : List (Observation Answer) → A → Prop}
    {program : Program Op Answer A} {seen : List (Observation Answer)}
    (meets : Meets allowed first program seen)
    (weaker : ∀ later result, seen ⊆ later → first later result → second later result) :
    Meets allowed second program seen := by
  induction program generalizing seen with
  | done result => exact weaker seen result (List.Subset.refl seen) meets
  | call op next ih =>
    refine ⟨meets.1, fun answer => ih answer (meets.2 answer) fun later result more => ?_⟩
    exact weaker later result fun told member => more (List.mem_append_left _ member)

theorem Meets.bind {mid : List (Observation Answer) → A → Prop}
    {post : List (Observation Answer) → B → Prop} {program : Program Op Answer A}
    {next : A → Program Op Answer B} {seen : List (Observation Answer)}
    (first : Meets allowed mid program seen)
    (second : ∀ later result, seen ⊆ later → mid later result →
      Meets allowed post (next result) later) :
    Meets allowed post (program.bind next) seen := by
  induction program generalizing seen with
  | done result => exact second seen result (List.Subset.refl seen) first
  | call op rest ih =>
    refine ⟨first.1, fun answer => ih answer (first.2 answer) fun later result more => ?_⟩
    exact second later result fun told member => more (List.mem_append_left _ member)

-- How a handler may end: with a value that `post` accepts, or a failure that `failed` does.
def Ends (failed : List (Observation Answer) → E → Prop)
    (post : List (Observation Answer) → A → Prop) (seen : List (Observation Answer)) :
    Except E A → Prop
  | .ok value => post seen value
  | .error error => failed seen error

variable (allowed) (failed : List (Observation Answer) → E → Prop)

def Gives (post : List (Observation Answer) → A → Prop) (handler : Handler Op Answer E A)
    (seen : List (Observation Answer)) : Prop :=
  Meets allowed (Ends failed post) handler seen

variable {allowed failed} {seen : List (Observation Answer)}
  {post : List (Observation Answer) → A → Prop}

theorem Gives.pure {value : A} (holds : post seen value) :
    Gives allowed failed post (Pure.pure value) seen := holds

theorem Gives.throw {error : E} (holds : failed seen error) :
    Gives allowed failed post (MonadExcept.throw error) seen := holds

theorem Gives.give {result : Except E A} (value : ∀ value, result = .ok value → post seen value)
    (error : ∀ error, result = .error error → failed seen error) :
    Gives allowed failed post (give result) seen := by
  cases result with
  | ok given => exact value given rfl
  | error given => exact error given rfl

theorem Gives.ask {op : Op} {post : List (Observation Answer) → Answer op → Prop}
    (may : allowed seen op) (told : ∀ answer, post (seen ++ [⟨op, answer⟩]) answer) :
    Gives allowed failed post (ask op) seen := ⟨may, told⟩

theorem Gives.mono {handler : Handler Op Answer E A} {other : List (Observation Answer) → A → Prop}
    (gives : Gives allowed failed post handler seen)
    (weaker : ∀ later value, seen ⊆ later → post later value → other later value) :
    Gives allowed failed other handler seen := by
  refine Meets.mono gives fun later result more ends => ?_
  cases result with
  | ok value => exact weaker later value more ends
  | error error => exact ends

theorem Gives.bind {handler : Handler Op Answer E A} {next : A → Handler Op Answer E B}
    {mid : List (Observation Answer) → A → Prop} {post : List (Observation Answer) → B → Prop}
    (first : Gives allowed failed mid handler seen)
    (second : ∀ later value, seen ⊆ later → mid later value →
      Gives allowed failed post (next value) later) :
    Gives allowed failed post (handler >>= next) seen := by
  refine Meets.bind first fun later result more ends => ?_
  cases result with
  | ok value => exact second later value more ends
  | error error => exact ends

theorem Gives.attempt {handler : Handler Op Answer E A}
    (gives : Gives allowed failed post handler seen) :
    Gives allowed failed (Ends failed post) (attempt handler) seen :=
  Meets.bind gives fun _ _ _ ends => ends

end Programs

section Facts

variable {S Op : Type} {Answer : Op → Type}

-- Which facts about the store held at some moment.
abbrev Facts (S : Type) : Type := (S → Prop) → Prop

def Amid (moments : List S) : Facts S := fun fact => ∃ store ∈ moments, fact store

variable (tells : List S → Observation Answer → Prop)

-- The fact held at some moment, as long as the observations tell the truth about the moments.
def Attests (seen : List (Observation Answer)) : Facts S := fun fact =>
  ∀ moments, (∀ told ∈ seen, tells moments told) → Amid moments fact

theorem Amid.mono {moments later : List S} (more : moments ⊆ later) :
    Amid moments ≤ Amid later := by
  rintro fact ⟨store, member, holds⟩
  exact ⟨store, more member, holds⟩

variable {tells} {seen later : List (Observation Answer)} {fact weaker : S → Prop}

theorem Attests.mono (more : seen ⊆ later) : Attests tells seen ≤ Attests tells later :=
  fun _ attests moments told => attests moments fun observation member =>
    told observation (more member)

theorem Attests.imp (attests : Attests tells seen fact)
    (implies : ∀ store, fact store → weaker store) : Attests tells seen weaker := by
  intro moments told
  obtain ⟨store, member, holds⟩ := attests moments told
  exact ⟨store, member, implies store holds⟩

theorem attests_of_mem {told : Observation Answer} (member : told ∈ seen)
    (means : ∀ moments, tells moments told → Amid moments fact) : Attests tells seen fact :=
  fun moments truth => means moments (truth told member)

end Facts

/-- The programs of the jobs, and the store that serves their calls. -/
structure System (S Token Request Job Op Work A : Type) (Answer Choice : Op → Type) where
  program : Job → Program Op Answer A
  entry : Request → Job
  -- One piece of work on a call, which is then still under way or answered.
  serve : S → Option Token → (op : Op) → Choice op → S × (Token ⊕ Answer op)
  -- The job that an answered call leaves running beside its program.
  spawned : Op → Option Job
  background : S → Work → S

section Systems

variable {S Token Request Job Op Work A : Type} {Answer Choice : Op → Type}

structure Task (S Token Job : Type) {Op : Type} (Answer : Op → Type) (A : Type) where
  job : Job
  program : Program Op Answer A
  token : Option Token
  seen : List (Observation Answer)
  -- Every store there was since the request arrived that the task serves.
  moments : List S

def Task.passed (task : Task S Token Job Answer A) (store : S) : Task S Token Job Answer A :=
  { task with moments := store :: task.moments }

structure State (S Token Job : Type) {Op : Type} (Answer : Op → Type) (A : Type) where
  store : S
  tasks : List (Task S Token Job Answer A)

inductive Action (Request Op Work : Type) (Choice : Op → Type) where
  | arrive (request : Request)
  | perform (task : Nat) (choice : (op : Op) → Choice op)
  | background (work : Work)

def State.passed (state : State S Token Job Answer A) (store : S) : State S Token Job Answer A :=
  ⟨store, state.tasks.map fun task => task.passed store⟩

namespace System

variable (system : System S Token Request Job Op Work A Answer Choice)

def start (store : S) : State S Token Job Answer A := ⟨store, []⟩

def arrived (store : S) (request : Request) : Task S Token Job Answer A :=
  ⟨system.entry request, system.program (system.entry request), none, [], [store]⟩

def fork (parent : Task S Token Job Answer A) (job : Job) : Task S Token Job Answer A :=
  ⟨job, system.program job, none, parent.seen, parent.moments⟩

def answered (task : Task S Token Job Answer A) (op : Op) (next : Answer op → Program Op Answer A)
    (answer : Answer op) : Task S Token Job Answer A :=
  { task with program := next answer, token := none, seen := task.seen ++ [⟨op, answer⟩] }

-- The tasks that a task becomes by one piece of work on its call.
def served (task : Task S Token Job Answer A) (op : Op) (next : Answer op → Program Op Answer A) :
    Token ⊕ Answer op → Task S Token Job Answer A × List (Task S Token Job Answer A)
  | .inl token => ({ task with token := some token }, [])
  | .inr answer =>
    (answered task op next answer,
      ((system.spawned op).map (system.fork (answered task op next answer))).toList)

def step (state : State S Token Job Answer A) :
    Action Request Op Work Choice → State S Token Job Answer A
  | .arrive request => { state with tasks := state.tasks ++ [system.arrived state.store request] }
  | .perform number choice =>
    match state.tasks[number]? with
    | none => state
    | some task =>
      match task.program with
      | .done _ => state
      | .call op next =>
        let work := system.serve state.store task.token op (choice op)
        let became := system.served task op next work.2
        State.passed ⟨state.store, state.tasks.set number became.1 ++ became.2⟩ work.1
  | .background work => state.passed (system.background state.store work)

def run (store : S) (actions : List (Action Request Op Work Choice)) :
    State S Token Job Answer A :=
  actions.foldl system.step (start store)

-- What is known after a piece of work, with the store that it leaves as the last moment.
def WorkTells (tells : List S → Observation Answer → Prop) (awaits : List S → S → Token → Op → Prop)
    (moments : List S) (op : Op) : S × (Token ⊕ Answer op) → Prop
  | (next, .inl held) => awaits (next :: moments) next held op
  | (next, .inr answer) => tells (next :: moments) ⟨op, answer⟩

/-- What the answers of a store mean, and what is known of a call that is under way. -/
structure Truthful (tells : List S → Observation Answer → Prop)
    (awaits : List S → S → Token → Op → Prop) : Prop where
  mono : ∀ moments later told, moments ⊆ later → tells moments told → tells later told
  serves : ∀ moments store token op choice,
    (∀ held, token = some held → awaits moments store held op) →
    WorkTells tells awaits moments op (system.serve store token op choice)
  keeps : ∀ moments store held op token other choice, awaits moments store held op →
    awaits ((system.serve store token other choice).1 :: moments)
      (system.serve store token other choice).1 held op
  background : ∀ moments store held op work, awaits moments store held op →
    awaits (system.background store work :: moments) (system.background store work) held op

/-- What the jobs need, may call for and end with, given which facts are known to have held. -/
structure Rules (S Job Op A : Type) where
  ready : Facts S → Job → Prop
  allowed : Facts S → Job → Op → Prop
  post : Facts S → Job → A → Prop
  ready_mono : ∀ job, Monotone (ready · job)
  allowed_mono : ∀ job op, Monotone (allowed · job op)
  post_mono : ∀ job result, Monotone (post · job result)

-- Besides being allowed, a call only leaves a job running that is ready.
def Permits (rules : Rules S Job Op A) (facts : Facts S) (job : Job) (op : Op) : Prop :=
  rules.allowed facts job op ∧ ∀ child, system.spawned op = some child → rules.ready facts child

def Follows (rules : Rules S Job Op A) (tells : List S → Observation Answer → Prop) (job : Job)
    (program : Program Op Answer A) (seen : List (Observation Answer)) : Prop :=
  Meets (fun seen op => system.Permits rules (Attests tells seen) job op)
    (fun seen result => rules.post (Attests tells seen) job result) program seen

/-- Requests start ready jobs, and the program of a ready job follows the rules. -/
structure Obeys (rules : Rules S Job Op A) (tells : List S → Observation Answer → Prop) : Prop where
  entry : ∀ facts request, rules.ready facts (system.entry request)
  program : ∀ job seen, rules.ready (Attests tells seen) job →
    system.Follows rules tells job (system.program job) seen

variable {system} {rules : Rules S Job Op A} {tells : List S → Observation Answer → Prop}
  {awaits : List S → S → Token → Op → Prop}

structure Sound (system : System S Token Request Job Op Work A Answer Choice)
    (rules : Rules S Job Op A) (tells : List S → Observation Answer → Prop)
    (awaits : List S → S → Token → Op → Prop) (store : S) (task : Task S Token Job Answer A) :
    Prop where
  told : ∀ observation ∈ task.seen, tells task.moments observation
  waits : ∀ op next, task.program = .call op next → ∀ token, task.token = some token →
    awaits task.moments store token op
  follows : system.Follows rules tells task.job task.program task.seen

variable {store next : S} {task : Task S Token Job Answer A}

theorem Sound.passed (truthful : system.Truthful tells awaits)
    (sound : Sound system rules tells awaits store task)
    (kept : ∀ op token, awaits task.moments store token op →
      awaits (next :: task.moments) next token op) :
    Sound system rules tells awaits next (task.passed next) where
  told observation member :=
    truthful.mono _ _ _ (List.subset_cons_self next task.moments) (sound.told observation member)
  waits op rest calls token held := kept op token (sound.waits op rest calls token held)
  follows := sound.follows

theorem Sound.arrived (obeys : system.Obeys rules tells) (store : S) (request : Request) :
    Sound system rules tells awaits store (system.arrived store request) where
  told := by simp [System.arrived]
  waits := by simp [System.arrived]
  follows := obeys.program _ _ (obeys.entry _ request)

/-- The work on the call of a task leaves it sound, and what it leaves running. -/
theorem Sound.served (truthful : system.Truthful tells awaits) (obeys : system.Obeys rules tells)
    (sound : Sound system rules tells awaits store task) {op : Op}
    {rest : Answer op → Program Op Answer A} (calls : task.program = .call op rest)
    (choice : Choice op) :
    ∀ became ∈ (system.served task op rest (system.serve store task.token op choice).2).1 ::
        (system.served task op rest (system.serve store task.token op choice).2).2,
      Sound system rules tells awaits (system.serve store task.token op choice).1
        (became.passed (system.serve store task.token op choice).1) := by
  have follows := sound.follows
  rw [calls] at follows
  have truth := truthful.serves task.moments store task.token op choice
    (sound.waits op rest calls)
  generalize system.serve store task.token op choice = work at truth ⊢
  obtain ⟨next, outcome⟩ := work
  have earlier : ∀ observation ∈ task.seen, tells (next :: task.moments) observation :=
    fun observation member => truthful.mono _ _ _ (List.subset_cons_self next task.moments)
      (sound.told observation member)
  cases outcome with
  | inl token =>
    intro became member
    rw [System.served, List.mem_singleton] at member
    subst member
    refine ⟨earlier, fun other later same held heldIs => ?_, sound.follows⟩
    have heads : Program.call op rest = Program.call other later := calls.symm.trans same
    obtain rfl : op = other := (Program.call.inj heads).1
    obtain rfl : token = held := Option.some.inj heldIs
    exact truth
  | inr answer =>
    have known : ∀ observation ∈ task.seen ++ [⟨op, answer⟩],
        tells (next :: task.moments) observation := by
      intro observation member
      rcases List.mem_append.mp member with old | new
      · exact earlier observation old
      · rw [List.mem_singleton.mp new]
        exact truth
    intro became member
    rcases List.mem_cons.mp member with rfl | member
    · exact ⟨known, by rintro _ _ _ _ ⟨⟩, follows.2 answer⟩
    · rw [System.served, Option.mem_toList, Option.map_eq_some_iff] at member
      obtain ⟨child, spawns, rfl⟩ := member
      have ready := rules.ready_mono child
        (Attests.mono (List.subset_append_left task.seen [⟨op, answer⟩])) (follows.1.2 child spawns)
      exact ⟨known, by rintro _ _ _ _ ⟨⟩, obeys.program child _ ready⟩

def AllSound (system : System S Token Request Job Op Work A Answer Choice)
    (rules : Rules S Job Op A) (tells : List S → Observation Answer → Prop)
    (awaits : List S → S → Token → Op → Prop) (state : State S Token Job Answer A) : Prop :=
  ∀ task ∈ state.tasks, Sound system rules tells awaits state.store task

theorem AllSound.step (truthful : system.Truthful tells awaits) (obeys : system.Obeys rules tells)
    {state : State S Token Job Answer A} (sound : AllSound system rules tells awaits state)
    (action : Action Request Op Work Choice) :
    AllSound system rules tells awaits (system.step state action) := by
  cases action with
  | arrive request =>
    intro task member
    rcases List.mem_append.mp member with old | new
    · exact sound task old
    · rw [List.mem_singleton.mp new]
      exact Sound.arrived obeys state.store request
  | background work =>
    intro task member
    obtain ⟨before, old, rfl⟩ := List.mem_map.mp member
    exact (sound before old).passed truthful fun op token =>
      truthful.background before.moments state.store token op work
  | perform number choice =>
    rw [System.step]
    split
    next => exact sound
    next task found =>
      split
      next => exact sound
      next op rest calls =>
        have held := sound task (List.mem_of_getElem? found)
        intro after member
        obtain ⟨before, among, rfl⟩ := List.mem_map.mp member
        rcases List.mem_append.mp among with kept | spawned
        · rcases List.mem_or_eq_of_mem_set kept with old | rfl
          · exact (sound before old).passed truthful fun other token =>
              truthful.keeps before.moments state.store token other task.token op (choice op)
          · exact held.served truthful obeys calls (choice op) _ List.mem_cons_self
        · exact held.served truthful obeys calls (choice op) before
            (List.mem_cons_of_mem _ spawned)

theorem run_sound (truthful : system.Truthful tells awaits) (obeys : system.Obeys rules tells)
    (store : S) (actions : List (Action Request Op Work Choice)) :
    AllSound system rules tells awaits (system.run store actions) := by
  have initial : AllSound system rules tells awaits (start store) := by simp [AllSound, start]
  rw [run]
  generalize start store = state at initial ⊢
  induction actions generalizing state with
  | nil => exact initial
  | cons action rest ih => exact ih _ (initial.step truthful obeys action)

theorem Sound.facts (sound : Sound system rules tells awaits store task) :
    Attests tells task.seen ≤ Amid task.moments :=
  fun _ attests => attests task.moments sound.told

/-- In every reachable state, the call of each task is allowed by what held since it began. -/
theorem run_allowed (truthful : system.Truthful tells awaits) (obeys : system.Obeys rules tells)
    (store : S) (actions : List (Action Request Op Work Choice))
    (member : task ∈ (system.run store actions).tasks) {op : Op}
    {rest : Answer op → Program Op Answer A} (calls : task.program = .call op rest) :
    rules.allowed (Amid task.moments) task.job op := by
  have sound := run_sound truthful obeys store actions task member
  have follows := sound.follows
  rw [calls] at follows
  exact rules.allowed_mono task.job op sound.facts follows.1.1

theorem run_post (truthful : system.Truthful tells awaits) (obeys : system.Obeys rules tells)
    (store : S) (actions : List (Action Request Op Work Choice))
    (member : task ∈ (system.run store actions).tasks) {result : A}
    (ended : task.program = .done result) :
    rules.post (Amid task.moments) task.job result := by
  have sound := run_sound truthful obeys store actions task member
  have follows := sound.follows
  rw [ended] at follows
  exact rules.post_mono task.job result sound.facts follows

section Invariants

variable {invariant : S → Prop} {broken : List S → Job → Prop}

-- The invariant holds and held at every moment, or there is a task that may break it.
def Kept (invariant : S → Prop) (broken : List S → Job → Prop)
    (state : State S Token Job Answer A) : Prop :=
  (∃ task ∈ state.tasks, broken task.moments task.job) ∨
    invariant state.store ∧ ∀ task ∈ state.tasks, ∀ moment ∈ task.moments, invariant moment

theorem Kept.passed
    (more : ∀ moments later job, moments ⊆ later → broken moments job → broken later job)
    {state : State S Token Job Answer A} (kept : Kept invariant broken state)
    (keeps : (∀ task ∈ state.tasks, ¬broken task.moments task.job) →
      (∀ task ∈ state.tasks, ∀ moment ∈ task.moments, invariant moment) →
        invariant state.store → invariant next) :
    Kept invariant broken (state.passed next) := by
  by_cases breaks : ∃ task ∈ state.tasks, broken task.moments task.job
  · obtain ⟨task, member, breaks⟩ := breaks
    exact .inl ⟨task.passed next, List.mem_map_of_mem member,
      more _ _ _ (List.subset_cons_self next task.moments) breaks⟩
  · obtain ⟨now, always⟩ := kept.resolve_left breaks
    have later := keeps (fun task member broke => breaks ⟨task, member, broke⟩) always now
    refine .inr ⟨later, fun after member moment among => ?_⟩
    obtain ⟨before, old, rfl⟩ := List.mem_map.mp member
    rcases List.mem_cons.mp among with rfl | earlier
    · exact later
    · exact always before old moment earlier

variable (system) in
theorem served_first (task : Task S Token Job Answer A) {op : Op}
    (rest : Answer op → Program Op Answer A) (outcome : Token ⊕ Answer op) :
    (system.served task op rest outcome).1.job = task.job ∧
      (system.served task op rest outcome).1.moments = task.moments := by
  cases outcome <;> exact ⟨rfl, rfl⟩

variable (system) in
theorem served_spawned (task : Task S Token Job Answer A) {op : Op}
    (rest : Answer op → Program Op Answer A) (outcome : Token ⊕ Answer op) :
    ∀ child ∈ (system.served task op rest outcome).2, child.moments = task.moments := by
  intro child member
  cases outcome with
  | inl => simp [System.served] at member
  | inr answer =>
    rw [System.served, Option.mem_toList, Option.map_eq_some_iff] at member
    obtain ⟨job, -, rfl⟩ := member
    rfl

/-- Beside what it spawned, a piece of work leaves the jobs there were, with their moments. -/
theorem Kept.worked {state : State S Token Job Answer A} {number : Nat}
    (found : state.tasks[number]? = some task) {op : Op} (rest : Answer op → Program Op Answer A)
    (outcome : Token ⊕ Answer op) (kept : Kept invariant broken state) :
    Kept invariant broken
      ⟨state.store, state.tasks.set number (system.served task op rest outcome).1 ++
        (system.served task op rest outcome).2⟩ := by
  obtain ⟨sameJob, sameMoments⟩ := served_first system task rest outcome
  have inside : number < state.tasks.length := (List.getElem?_eq_some_iff.mp found).1
  rcases kept with ⟨other, member, breaks⟩ | ⟨now, always⟩
  · obtain ⟨index, is⟩ := List.mem_iff_getElem?.mp member
    left
    by_cases same : index = number
    · subst same
      obtain rfl : other = task := Option.some.inj (is.symm.trans found)
      refine ⟨_, List.mem_append_left _ (List.mem_set inside _), ?_⟩
      rw [sameJob, sameMoments]
      exact breaks
    · refine ⟨other, List.mem_append_left _ ?_, breaks⟩
      rw [← List.getElem?_set_ne (Ne.symm same)] at is
      exact List.mem_of_getElem? is
  · refine .inr ⟨now, fun after member moment among => ?_⟩
    have held := always task (List.mem_of_getElem? found)
    rcases List.mem_append.mp member with old | spawned
    · rcases List.mem_or_eq_of_mem_set old with old | rfl
      · exact always after old moment among
      · rw [sameMoments] at among
        exact held moment among
    · rw [served_spawned system task rest outcome after spawned] at among
      exact held moment among

/-- An invariant that any allowed work keeps, but for that of the tasks that may break it. -/
structure Keeps (system : System S Token Request Job Op Work A Answer Choice)
    (rules : Rules S Job Op A) (invariant : S → Prop) (broken : List S → Job → Prop) : Prop where
  mono : ∀ moments later job, moments ⊆ later → broken moments job → broken later job
  serves : ∀ moments store job token op choice, rules.allowed (Amid moments) job op →
    ¬broken moments job → (∀ moment ∈ moments, invariant moment) → invariant store →
      invariant (system.serve store token op choice).1
  background : ∀ store work, invariant store → invariant (system.background store work)

theorem Kept.step (keeps : Keeps system rules invariant broken)
    {state : State S Token Job Answer A} (sound : AllSound system rules tells awaits state)
    (kept : Kept invariant broken state) (action : Action Request Op Work Choice) :
    Kept invariant broken (system.step state action) := by
  cases action with
  | arrive request =>
    rcases kept with ⟨task, member, breaks⟩ | ⟨now, always⟩
    · exact .inl ⟨task, List.mem_append_left _ member, breaks⟩
    · refine .inr ⟨now, fun after member moment among => ?_⟩
      rcases List.mem_append.mp member with old | new
      · exact always after old moment among
      · rw [List.mem_singleton.mp new] at among
        rw [List.mem_singleton.mp among]
        exact now
  | background work => exact kept.passed keeps.mono fun _ _ => keeps.background state.store work
  | perform number choice =>
    rw [System.step]
    split
    next => exact kept
    next task found =>
      split
      next => exact kept
      next op rest calls =>
        have held := sound task (List.mem_of_getElem? found)
        have follows := held.follows
        rw [calls] at follows
        have allowed := rules.allowed_mono task.job op held.facts follows.1.1
        refine (kept.worked found rest _).passed keeps.mono fun unbroken always now => ?_
        obtain ⟨sameJob, sameMoments⟩ := served_first system task rest
          (system.serve state.store task.token op (choice op)).2
        have inside : number < state.tasks.length := (List.getElem?_eq_some_iff.mp found).1
        have among := List.mem_append_left
          (system.served task op rest (system.serve state.store task.token op (choice op)).2).2
          (List.mem_set inside
            (system.served task op rest (system.serve state.store task.token op (choice op)).2).1)
        have mine := unbroken _ among
        have before := always _ among
        rw [sameJob, sameMoments] at mine
        rw [sameMoments] at before
        exact keeps.serves task.moments state.store task.job task.token op (choice op) allowed mine
          before now

/-- After any run, the invariant holds or some task was in a position to break it. -/
theorem run_kept (truthful : system.Truthful tells awaits) (obeys : system.Obeys rules tells)
    (keeps : Keeps system rules invariant broken) (store : S)
    (actions : List (Action Request Op Work Choice)) (initial : invariant store) :
    Kept invariant broken (system.run store actions) := by
  have sound : AllSound system rules tells awaits (start store) := by simp [AllSound, start]
  have kept : Kept invariant broken (start store : State S Token Job Answer A) :=
    .inr ⟨initial, by simp [start]⟩
  rw [run]
  generalize start store = state at sound kept ⊢
  induction actions generalizing state with
  | nil => exact kept
  | cons action rest ih =>
    exact ih _ (sound.step truthful obeys action) (kept.step keeps sound action)

end Invariants

end System

end Systems

end Calls
