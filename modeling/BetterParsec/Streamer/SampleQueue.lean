import BetterParsec.Library.Runs

set_option autoImplicit false
set_option linter.all false

/-!
# The queue of frames before a track

`TrackLocalSender` of `webrtc/sender.rs`: `send_samples` and `clear_queue` on one side
of the queue, on the other the tasks of `sample_sender`, one for each `create_track`.
The queue is behind a mutex, and the tasks sleep on one `Notify`.
-/

namespace BetterParsec

namespace SampleQueue

variable {Sample : Type}

structure FrameSamples (Sample : Type) where
  important : Bool
  samples : List Sample
  deriving DecidableEq

structure EnqueueOutcome where
  accepted : Bool
  replacedFrames : Nat
  deriving DecidableEq

-- The front of the queue is the front of the list; frames are taken from the back.
def enqueueFrame (queue : List (FrameSamples Sample)) (queueSize : Nat)
    (frame : FrameSamples Sample) : List (FrameSamples Sample) × EnqueueOutcome :=
  if frame.important then ([frame], ⟨true, queue.length⟩)
  else if queueSize ≤ queue.length then (queue, ⟨false, 0⟩)
  else (frame :: queue, ⟨true, 0⟩)

inductive TrackWriteOutcome where
  | written
  | skipped
  | failed
  deriving DecidableEq

-- Where a task of `sample_sender` stands.
inductive Phase (Sample : Type) where
  -- Before it locks the queue.
  | looking
  -- It found the queue empty and let the lock go.
  | resting
  -- Among the waiters of the `Notify`.
  | asleep
  | writing (samples : List Sample)
  deriving DecidableEq

-- `notify_one` wakes the longest waiter, or leaves a permit where there is none.
structure Notify where
  permit : Bool
  waiters : List Nat
  deriving DecidableEq

structure Sender (Sample : Type) where
  queue : List (FrameSamples Sample)
  -- A frame was put into the queue: `send_samples` holds the lock and has not notified yet.
  notifying : Bool
  notify : Notify
  tasks : List (Phase Sample)
  deriving DecidableEq

def Sender.new : Sender Sample := ⟨[], false, ⟨false, []⟩, []⟩

inductive Action (Sample : Type) where
  | createTrack
  | sendSamples (samples : List Sample) (important : Bool)
  | notifyOne
  | clearQueue (clearImportant : Bool)
  | look (task : Nat)
  | rest (task : Nat)
  | write (task : Nat) (outcome : TrackWriteOutcome)
  deriving DecidableEq

-- What is observed, with the calls on the metrics.
inductive Entry (Sample : Type) where
  | enqueued (frame : FrameSamples Sample) (outcome : EnqueueOutcome)
  | cleared (clearImportant : Bool) (frames : Nat)
  | dequeued (frame : FrameSamples Sample)
  | wrote (sample : Sample) (outcome : TrackWriteOutcome)
  | finished
  deriving DecidableEq

def Notify.notifyOne (notify : Notify) : Notify × Option Nat :=
  match notify.waiters with
  | [] => ({ notify with permit := true }, none)
  | first :: later => ({ notify with waiters := later }, some first)

-- A frame without a sample left is finished at once.
def startWriting (samples : List Sample) : Phase Sample × List (Entry Sample) :=
  match samples with
  | [] => (.looking, [.finished])
  | _ => (.writing samples, [])

def step (queueSize : Nat) (s : Sender Sample) : Action Sample → Sender Sample × List (Entry Sample)
  | .createTrack => ({ s with tasks := s.tasks ++ [.looking] }, [])
  | .sendSamples samples important =>
    if s.notifying then (s, [])
    else
      let frame := ⟨important, samples⟩
      let enqueued := enqueueFrame s.queue queueSize frame
      ({ s with queue := enqueued.1, notifying := enqueued.2.accepted },
        [.enqueued frame enqueued.2])
  | .notifyOne =>
    if !s.notifying then (s, [])
    else
      let notified := s.notify.notifyOne
      ({ s with
          notifying := false
          notify := notified.1
          tasks :=
            match notified.2 with
            | none => s.tasks
            | some task => s.tasks.set task .looking }, [])
  | .clearQueue clearImportant =>
    if s.notifying then (s, [])
    else
      let queue := if clearImportant then [] else s.queue.filter FrameSamples.important
      ({ s with queue := queue }, [.cleared clearImportant (s.queue.length - queue.length)])
  | .look task =>
    match s.tasks[task]? with
    | some .looking =>
      if s.notifying then (s, [])
      else
        match s.queue.getLast? with
        | none => ({ s with tasks := s.tasks.set task .resting }, [])
        | some frame =>
          let started := startWriting frame.samples
          ({ s with queue := s.queue.dropLast, tasks := s.tasks.set task started.1 },
            .dequeued frame :: started.2)
    | _ => (s, [])
  | .rest task =>
    match s.tasks[task]? with
    | some .resting =>
      if s.notify.permit then
        ({ s with
            notify := { s.notify with permit := false }
            tasks := s.tasks.set task .looking }, [])
      else
        ({ s with
            notify := { s.notify with waiters := s.notify.waiters ++ [task] }
            tasks := s.tasks.set task .asleep }, [])
    | _ => (s, [])
  | .write task outcome =>
    match s.tasks[task]? with
    | some (.writing (sample :: later)) =>
      let started := startWriting later
      ({ s with tasks := s.tasks.set task started.1 }, .wrote sample outcome :: started.2)
    | _ => (s, [])

def run (queueSize : Nat) (actions : List (Action Sample)) :
    Sender Sample × List (Entry Sample) :=
  Runs.run (step queueSize) .new actions

section Wakeups

def Phase.Awake : Phase Sample → Prop
  | .looking | .writing _ => True
  | .resting | .asleep => False

structure Attended (s : Sender Sample) : Prop where
  -- Somebody will look at the frames in the queue.
  attended : s.queue ≠ [] → s.tasks ≠ [] → s.notifying = true ∨ s.notify.permit = true ∨
    ∃ phase ∈ s.tasks, phase.Awake
  permit : s.notify.permit = true → s.notify.waiters = []
  waiters : ∀ task, task ∈ s.notify.waiters ↔ s.tasks[task]? = some .asleep
  nodup : s.notify.waiters.Nodup

theorem initial_attended : Attended (.new : Sender Sample) :=
  ⟨fun full => absurd rfl full, fun impossible => (Bool.false_ne_true impossible).elim,
    fun task => by simp [Sender.new], List.nodup_nil⟩

variable {tasks : List (Phase Sample)} {task : Nat} {old new : Phase Sample}

theorem mem_set_of_mem (stood : tasks[task]? = some old) {phase : Phase Sample}
    (member : phase ∈ tasks) (other : phase ≠ old) : phase ∈ tasks.set task new := by
  obtain ⟨index, found⟩ := List.mem_iff_getElem?.mp member
  have differs : task ≠ index := by
    rintro rfl
    rw [stood] at found
    exact other (Option.some.inj found).symm
  exact List.mem_iff_getElem?.mpr ⟨index, by rw [List.getElem?_set_ne differs, found]⟩

theorem mem_set_self (stood : tasks[task]? = some old) : new ∈ tasks.set task new := by
  apply List.mem_iff_getElem?.mpr
  exact ⟨task, List.getElem?_set_self (List.getElem?_eq_some_iff.mp stood).1⟩

theorem set_asleep_iff (stood : tasks[task]? = some old) (other : Nat) :
    (tasks.set task new)[other]? = some .asleep ↔
      if other = task then new = .asleep else tasks[other]? = some .asleep := by
  by_cases same : other = task
  · subst same
    rw [if_pos rfl, List.getElem?_set_self (List.getElem?_eq_some_iff.mp stood).1,
      Option.some.injEq]
  · rw [if_neg same, List.getElem?_set_ne (Ne.symm same)]

-- A task that is neither asleep before nor afterwards.
theorem Attended.move {s : Sender Sample} (held : Attended s)
    (stood : s.tasks[task]? = some old) (wasUp : old ≠ .asleep) (isUp : new ≠ .asleep) :
    ∀ other, other ∈ s.notify.waiters ↔ (s.tasks.set task new)[other]? = some .asleep := by
  intro other
  rw [set_asleep_iff stood, held.waiters]
  by_cases same : other = task
  · subst same
    rw [if_pos rfl, stood, Option.some.injEq]
    exact iff_of_false wasUp isUp
  · rw [if_neg same]

theorem startWriting_awake (samples : List Sample) : (startWriting samples).1.Awake := by
  cases samples <;> trivial

theorem Phase.Awake.not_asleep {phase : Phase Sample} (awake : phase.Awake) : phase ≠ .asleep := by
  rintro rfl
  exact awake

theorem set_ne_nil (stood : tasks[task]? = some old) : tasks.set task new ≠ [] :=
  List.ne_nil_of_mem (mem_set_self stood)

theorem Attended.wake {s : Sender Sample} (held : Attended s) (stood : s.tasks[task]? = some old)
    (wasUp : old ≠ .asleep) (awake : new.Awake) (queue : List (FrameSamples Sample)) :
    Attended { s with queue := queue, tasks := s.tasks.set task new } :=
  ⟨fun _ _ => .inr (.inr ⟨new, mem_set_self stood, awake⟩), held.permit,
    held.move stood wasUp awake.not_asleep, held.nodup⟩

theorem step_notifyOne_nil (queueSize : Nat) {s : Sender Sample} (sending : s.notifying = true)
    (alone : s.notify.waiters = []) :
    (step queueSize s .notifyOne).1 = { s with
      notifying := false
      notify := { s.notify with permit := true } } := by
  simp only [step, sending, Notify.notifyOne, alone, Bool.not_true, Bool.false_eq_true, if_false]

theorem step_notifyOne_cons (queueSize : Nat) {s : Sender Sample} {first : Nat}
    {later : List Nat} (sending : s.notifying = true)
    (waiting : s.notify.waiters = first :: later) :
    (step queueSize s .notifyOne).1 = { s with
      notifying := false
      notify := { s.notify with waiters := later }
      tasks := s.tasks.set first .looking } := by
  simp only [step, sending, Notify.notifyOne, waiting, Bool.not_true, Bool.false_eq_true, if_false]

theorem Attended.notified {s : Sender Sample} (held : Attended s) (queueSize : Nat)
    (sending : s.notifying = true) : Attended (step queueSize s .notifyOne).1 := by
  cases waiting : s.notify.waiters with
  | nil =>
    rw [step_notifyOne_nil queueSize sending waiting]
    exact ⟨fun _ _ => .inr (.inl rfl), fun _ => waiting, held.waiters, held.nodup⟩
  | cons first later =>
    rw [step_notifyOne_cons queueSize sending waiting]
    have stood : s.tasks[first]? = some .asleep :=
      (held.waiters first).mp (by rw [waiting]; exact List.mem_cons_self)
    have apart := held.nodup
    rw [waiting, List.nodup_cons] at apart
    refine ⟨fun _ _ => .inr (.inr ⟨.looking, mem_set_self stood, trivial⟩), ?_, ?_, apart.2⟩
    · intro permit
      have none := held.permit permit
      rw [waiting] at none
      cases none
    · intro other
      change other ∈ later ↔ (s.tasks.set first .looking)[other]? = some .asleep
      rw [set_asleep_iff stood]
      by_cases same : other = first
      · subst same
        rw [if_pos rfl]
        exact iff_of_false apart.1 (by simp)
      · rw [if_neg same, ← held.waiters, waiting, List.mem_cons]
        exact (or_iff_right same).symm

-- A task found the queue empty.
theorem Attended.rested {s : Sender Sample} (held : Attended s) (stood : s.tasks[task]? = some .looking)
    (empty : s.queue = []) : Attended { s with tasks := s.tasks.set task .resting } :=
  ⟨fun full => absurd empty full, held.permit, held.move stood (by simp) (by simp), held.nodup⟩

theorem Attended.permitted {s : Sender Sample} (held : Attended s)
    (stood : s.tasks[task]? = some .resting) :
    Attended { s with
      notify := { s.notify with permit := false }
      tasks := s.tasks.set task .looking } :=
  ⟨fun _ _ => .inr (.inr ⟨.looking, mem_set_self stood, trivial⟩),
    fun impossible => (Bool.false_ne_true impossible).elim,
    held.move stood (by simp) (by simp), held.nodup⟩

theorem Attended.slept {s : Sender Sample} (held : Attended s)
    (stood : s.tasks[task]? = some .resting) (none : s.notify.permit = false) :
    Attended { s with
      notify := { s.notify with waiters := s.notify.waiters ++ [task] }
      tasks := s.tasks.set task .asleep } := by
  have absent : task ∉ s.notify.waiters := by
    rw [held.waiters, stood]
    simp
  refine ⟨?_, fun permit => ?_, ?_, ?_⟩
  · intro full _
    obtain sending | permit | ⟨phase, member, awake⟩ :=
      held.attended full (List.ne_nil_of_mem (List.mem_of_getElem? stood))
    · exact .inl sending
    · rw [none] at permit
      cases permit
    · refine .inr (.inr ⟨phase, mem_set_of_mem stood member ?_, awake⟩)
      rintro rfl
      exact awake
  · rw [none] at permit
    cases permit
  · intro other
    rw [List.mem_append, List.mem_singleton, set_asleep_iff stood, held.waiters]
    by_cases same : other = task
    · simp [same]
    · simp [same]
  · exact List.nodup_append.mpr ⟨held.nodup, List.nodup_singleton task, by
      intro waiter member other here
      rw [List.mem_singleton.mp here]
      rintro rfl
      exact absent member⟩

theorem Attended.step (queueSize : Nat) {s : Sender Sample} (held : Attended s)
    (action : Action Sample) : Attended (SampleQueue.step queueSize s action).1 := by
  cases action with
  | createTrack =>
    refine ⟨fun _ _ => .inr (.inr ⟨.looking, by simp [SampleQueue.step], trivial⟩), held.permit,
      fun other => ?_, held.nodup⟩
    rw [SampleQueue.step, held.waiters, List.getElem?_append]
    split
    · rfl
    · rename_i beyond
      rw [List.getElem?_eq_none (Nat.le_of_not_lt beyond), List.getElem?_singleton]
      split <;> simp
  | sendSamples samples important =>
    rw [SampleQueue.step]
    split
    · exact held
    · refine ⟨?_, held.permit, held.waiters, held.nodup⟩
      intro full started
      cases important with
      | true => exact .inl rfl
      | false =>
        simp only [enqueueFrame, Bool.false_eq_true, if_false] at full ⊢
        split at full
        · rename_i crowded
          rw [if_pos crowded]
          exact (held.attended full started).imp_left fun sending => absurd sending ‹_›
        · rename_i room
          rw [if_neg room]
          exact .inl rfl
  | notifyOne =>
    by_cases sending : s.notifying = true
    · exact held.notified queueSize sending
    · simpa only [SampleQueue.step, Bool.not_eq_true, sending, Bool.not_false, if_true] using held
  | clearQueue clearImportant =>
    rw [SampleQueue.step]
    split
    · exact held
    · refine ⟨fun full => held.attended ?_, held.permit, held.waiters, held.nodup⟩
      rintro empty
      apply full
      simp [empty]
  | look task =>
    rw [SampleQueue.step]
    split
    · rename_i stood
      split
      · exact held
      · split
        · rename_i empty
          exact held.rested stood (List.getLast?_eq_none_iff.mp empty)
        · exact held.wake stood (by simp) (startWriting_awake _) _
    · exact held
  | rest task =>
    rw [SampleQueue.step]
    split
    · rename_i stood
      split
      · exact held.permitted stood
      · rename_i none
        exact held.slept stood (Bool.eq_false_iff.mpr none)
    · exact held
  | write task outcome =>
    rw [SampleQueue.step]
    split
    · rename_i stood
      exact held.wake stood (by simp) (startWriting_awake _) _
    · exact held

/-- No frame is stranded: where every task of a track sleeps and no send is on its way, the queue is
empty. -/
theorem no_frame_stranded (queueSize : Nat) (actions : List (Action Sample))
    (created : (run queueSize actions).1.tasks ≠ [])
    (sent : (run queueSize actions).1.notifying = false)
    (asleep : ∀ phase ∈ (run queueSize actions).1.tasks, phase = .asleep) :
    (run queueSize actions).1.queue = [] := by
  have held : Attended (run queueSize actions).1 :=
    Runs.run_invariant_of_forall (step queueSize) (fun _ s => Attended s)
      (fun _ _ action held => held.step queueSize action) [] .new actions initial_attended
  by_contra full
  obtain sending | permit | ⟨phase, member, awake⟩ := held.attended full created
  · rw [sent] at sending
    cases sending
  · obtain ⟨phase, rest, split⟩ := List.exists_cons_of_ne_nil created
    have waits : (0 : Nat) ∈ (run queueSize actions).1.notify.waiters := by
      rw [held.waiters, split, List.getElem?_cons_zero]
      exact congrArg some (asleep phase (by rw [split]; exact List.mem_cons_self))
    rw [held.permit permit] at waits
    cases waits
  · exact awake.not_asleep (asleep phase member)

-- The task wakes up for the frame and sleeps again; the second frame is waiting for its send only.
theorem no_frame_stranded_burst :
    (run 2 [.createTrack, .look 0, .sendSamples [(1 : Nat)] true, .notifyOne, .rest 0,
      .look 0, .write 0 .written, .look 0, .rest 0]).1.queue = [] :=
  no_frame_stranded 2 _ (by decide) (by decide) (by decide)

end Wakeups

section Order

-- The frames that got into the queue, oldest first.
def accepted (log : List (Entry Sample)) : List (FrameSamples Sample) :=
  log.filterMap fun
    | .enqueued frame outcome => if outcome.accepted then some frame else none
    | _ => none

def dequeued (log : List (Entry Sample)) : List (FrameSamples Sample) :=
  log.filterMap fun
    | .dequeued frame => some frame
    | _ => none

@[simp] theorem accepted_append (first second : List (Entry Sample)) :
    accepted (first ++ second) = accepted first ++ accepted second :=
  List.filterMap_append

@[simp] theorem dequeued_append (first second : List (Entry Sample)) :
    dequeued (first ++ second) = dequeued first ++ dequeued second :=
  List.filterMap_append

variable (queueSize : Nat) (s : Sender Sample)

-- What a step can do to the queue, and what it tells of it.
inductive Moved (queueSize : Nat) (queue : List (FrameSamples Sample)) :
    List (Entry Sample) → List (FrameSamples Sample) → Prop where
  | passed {emitted : List (Entry Sample)} {next : List (FrameSamples Sample)}
      (kept : dequeued emitted ++ next.reverse = queue.reverse)
      (silent : ∀ entry ∈ emitted, ∀ frame outcome, entry ≠ .enqueued frame outcome)
      (uncleared : ∀ entry ∈ emitted, ∀ clearImportant frames,
        entry ≠ .cleared clearImportant frames) : Moved queueSize queue emitted next
  | joined (frame : FrameSamples Sample) (plain : frame.important = false)
      (room : queue.length < queueSize) :
      Moved queueSize queue [.enqueued frame ⟨true, 0⟩] (frame :: queue)
  | refused (frame : FrameSamples Sample) (plain : frame.important = false) :
      Moved queueSize queue [.enqueued frame ⟨false, 0⟩] queue
  | superseded (frame : FrameSamples Sample) (newest : frame.important = true) :
      Moved queueSize queue [.enqueued frame ⟨true, queue.length⟩] [frame]
  | thinned (frames : Nat) :
      Moved queueSize queue [.cleared false frames] (queue.filter FrameSamples.important)
  | emptied (frames : Nat) : Moved queueSize queue [.cleared true frames] []

theorem Moved.stayed (queue : List (FrameSamples Sample)) : Moved queueSize queue [] queue :=
  .passed rfl (by simp) (by simp)

theorem startWriting_entries (samples : List Sample) :
    ∀ entry ∈ (startWriting samples).2, entry = .finished := by
  cases samples <;> simp [startWriting]

theorem dequeued_startWriting (samples : List Sample) : dequeued (startWriting samples).2 = [] := by
  cases samples <;> rfl

theorem step_moved (action : Action Sample) :
    Moved queueSize s.queue (step queueSize s action).2 (step queueSize s action).1.queue := by
  cases action with
  | createTrack => exact .stayed queueSize s.queue
  | notifyOne =>
    rw [step]
    split <;> exact .stayed queueSize s.queue
  | sendSamples samples important =>
    rw [step]
    split
    · exact .stayed queueSize s.queue
    · cases important with
      | true => exact .superseded ⟨true, samples⟩ rfl
      | false =>
        by_cases crowded : queueSize ≤ s.queue.length
        · simp only [enqueueFrame, crowded, Bool.false_eq_true, if_false, if_true]
          exact .refused ⟨false, samples⟩ rfl
        · simp only [enqueueFrame, crowded, Bool.false_eq_true, if_false]
          exact .joined ⟨false, samples⟩ rfl (Nat.lt_of_not_le crowded)
  | clearQueue clearImportant =>
    rw [step]
    split
    · exact .stayed queueSize s.queue
    · cases clearImportant with
      | true => exact .emptied _
      | false => exact .thinned _
  | look task =>
    rw [step]
    split
    · split
      · exact .stayed queueSize s.queue
      · split
        · exact .stayed queueSize s.queue
        · rename_i frame taken
          refine .passed ?_ ?_ ?_
          · change frame :: dequeued (startWriting frame.samples).2 ++ s.queue.dropLast.reverse = _
            rw [dequeued_startWriting]
            conv_rhs => rw [← List.dropLast_append_getLast? frame taken, List.reverse_append]
            rfl
          · intro entry member
            rcases List.mem_cons.mp member with rfl | later
            · simp
            · simp [startWriting_entries _ entry later]
          · intro entry member
            rcases List.mem_cons.mp member with rfl | later
            · simp
            · simp [startWriting_entries _ entry later]
    · exact .stayed queueSize s.queue
  | rest task =>
    rw [step]
    split
    · split <;> exact .stayed queueSize s.queue
    · exact .stayed queueSize s.queue
  | write task outcome =>
    rw [step]
    split
    · rename_i sample later stood
      refine .passed ?_ ?_ ?_
      · change dequeued (startWriting later).2 ++ s.queue.reverse = _
        rw [dequeued_startWriting, List.nil_append]
      · intro entry member
        rcases List.mem_cons.mp member with rfl | later
        · simp
        · simp [startWriting_entries _ entry later]
      · intro entry member
        rcases List.mem_cons.mp member with rfl | later
        · simp
        · simp [startWriting_entries _ entry later]
    · exact .stayed queueSize s.queue

variable {queueSize} {queue next : List (FrameSamples Sample)} {emitted : List (Entry Sample)}

theorem accepted_eq_nil (silent : ∀ entry ∈ emitted, ∀ frame outcome,
    entry ≠ .enqueued frame outcome) : accepted emitted = [] := by
  refine List.filterMap_eq_nil_iff.mpr fun entry member => ?_
  cases entry with
  | enqueued frame outcome => exact absurd rfl (silent _ member frame outcome)
  | _ => rfl

theorem Moved.sublist (moved : Moved queueSize queue emitted next) :
    (dequeued emitted ++ next.reverse).Sublist (queue.reverse ++ accepted emitted) := by
  cases moved with
  | passed kept silent =>
    rw [kept, accepted_eq_nil silent, List.append_nil]
  | joined frame =>
    rw [List.reverse_cons]
    exact .refl _
  | refused => simp [dequeued, accepted]
  | superseded frame => exact List.sublist_append_right _ [frame]
  | thinned =>
    change ((queue.filter FrameSamples.important).reverse).Sublist (queue.reverse ++ [])
    rw [List.append_nil]
    exact List.filter_sublist.reverse
  | emptied => exact List.nil_sublist _

theorem Moved.bounded (moved : Moved queueSize queue emitted next)
    (bound : queue.length ≤ max queueSize 1) : next.length ≤ max queueSize 1 := by
  cases moved with
  | passed kept =>
    have lengths := congrArg List.length kept
    rw [List.length_append, List.length_reverse, List.length_reverse] at lengths
    omega
  | joined frame plain room =>
    rw [List.length_cons]
    omega
  | refused => exact bound
  | superseded => exact Nat.le_max_right queueSize 1
  | thinned => exact (List.length_filter_le _ _).trans bound
  | emptied => exact Nat.zero_le _

-- Neither another important frame came nor was everything cleared.
def Undisturbed (log : List (Entry Sample)) : Prop :=
  (∀ frame outcome, .enqueued frame outcome ∈ log → frame.important = false) ∧
    ∀ frames, .cleared true frames ∉ log

theorem Moved.leads (moved : Moved queueSize queue emitted next) {front : List (FrameSamples Sample)}
    {frame : FrameSamples Sample} (important : frame.important = true)
    (still : Undisturbed emitted) (led : [frame] <+: front ++ queue.reverse) :
    [frame] <+: front ++ (dequeued emitted ++ next.reverse) := by
  cases moved with
  | passed kept => rwa [kept]
  | joined joining =>
    change [frame] <+: front ++ (joining :: queue).reverse
    rw [List.reverse_cons, ← List.append_assoc]
    exact led.trans (List.prefix_append _ _)
  | refused => exact led
  | superseded other newest =>
    have plain := still.1 other _ List.mem_cons_self
    rw [newest] at plain
    cases plain
  | thinned =>
    change [frame] <+: front ++ (queue.filter FrameSamples.important).reverse
    cases front with
    | cons first rest =>
      rw [List.cons_append, List.cons_prefix_cons] at led ⊢
      exact ⟨led.1, List.nil_prefix⟩
    | nil =>
      rw [List.nil_append] at led ⊢
      rw [← List.filter_reverse]
      obtain ⟨rest, split⟩ := led
      rw [← split, List.singleton_append, List.filter_cons_of_pos important]
      exact List.prefix_append [frame] _
  | emptied frames => exact absurd List.mem_cons_self (still.2 frames)

theorem Undisturbed.of_append {first second : List (Entry Sample)}
    (still : Undisturbed (first ++ second)) : Undisturbed first ∧ Undisturbed second :=
  ⟨⟨fun frame outcome member => still.1 frame outcome (List.mem_append_left _ member),
      fun frames member => still.2 frames (List.mem_append_left _ member)⟩,
    ⟨fun frame outcome member => still.1 frame outcome (List.mem_append_right _ member),
      fun frames member => still.2 frames (List.mem_append_right _ member)⟩⟩

-- What holds from the moment an important frame is accepted.
structure Restarted (frame : FrameSamples Sample) (after : List (Entry Sample))
    (queue : List (FrameSamples Sample)) : Prop where
  fresh : (dequeued after ++ queue.reverse).Sublist (frame :: accepted after)
  first : Undisturbed after → [frame] <+: dequeued after ++ queue.reverse

theorem Restarted.step (moved : Moved queueSize queue emitted next) {frame : FrameSamples Sample}
    {after : List (Entry Sample)} (important : frame.important = true)
    (restarted : Restarted frame after queue) : Restarted frame (after ++ emitted) next := by
  refine ⟨?_, fun still => ?_⟩
  · rw [dequeued_append, accepted_append, List.append_assoc, ← List.cons_append]
    have before := restarted.fresh.append (.refl (accepted emitted))
    rw [List.append_assoc] at before
    exact (moved.sublist.append_left (dequeued after)).trans before
  · rw [dequeued_append, List.append_assoc]
    obtain ⟨earlier, later⟩ := still.of_append
    exact moved.leads important later (restarted.first earlier)

structure InOrder (queueSize : Nat) (log : List (Entry Sample))
    (queue : List (FrameSamples Sample)) : Prop where
  once : (dequeued log ++ queue.reverse).Sublist (accepted log)
  bounded : queue.length ≤ max queueSize 1
  restarted : ∀ before frame outcome after, log = before ++ .enqueued frame outcome :: after →
    frame.important = true → Restarted frame after queue

theorem Moved.restarts (moved : Moved queueSize queue emitted next)
    {inner after : List (Entry Sample)} {frame : FrameSamples Sample} {outcome : EnqueueOutcome}
    (split : emitted = inner ++ .enqueued frame outcome :: after)
    (important : frame.important = true) : Restarted frame after next := by
  have member : .enqueued frame outcome ∈ emitted := by simp [split]
  have alone : ∀ {only : Entry Sample}, [only] = inner ++ .enqueued frame outcome :: after →
      only = .enqueued frame outcome ∧ after = [] := by
    intro only same
    have lengths := congrArg List.length same
    simp only [List.length_append, List.length_cons, List.length_nil] at lengths
    have none : inner = [] := List.eq_nil_of_length_eq_zero (by omega)
    rw [none, List.nil_append] at same
    exact ⟨(List.cons.inj same).1, (List.cons.inj same).2.symm⟩
  cases moved with
  | passed kept silent => exact absurd rfl (silent _ member frame outcome)
  | joined other plain =>
    obtain ⟨same, -⟩ := alone split
    obtain ⟨rfl, -⟩ := Entry.enqueued.inj same
    rw [plain] at important
    cases important
  | refused other plain =>
    obtain ⟨same, -⟩ := alone split
    obtain ⟨rfl, -⟩ := Entry.enqueued.inj same
    rw [plain] at important
    cases important
  | superseded other =>
    obtain ⟨same, rfl⟩ := alone split
    obtain ⟨rfl, -⟩ := Entry.enqueued.inj same
    exact ⟨.refl _, fun _ => List.prefix_rfl⟩
  | thinned => cases (alone split).1
  | emptied => cases (alone split).1

theorem InOrder.step (moved : Moved queueSize queue emitted next) {log : List (Entry Sample)}
    (ordered : InOrder queueSize log queue) : InOrder queueSize (log ++ emitted) next := by
  refine ⟨?_, moved.bounded ordered.bounded, ?_⟩
  · rw [dequeued_append, accepted_append, List.append_assoc]
    have before := ordered.once.append (.refl (accepted emitted))
    rw [List.append_assoc] at before
    exact (moved.sublist.append_left (dequeued log)).trans before
  · intro before frame outcome after split important
    rcases List.append_eq_append_iff.mp split with ⟨inner, rfl, here⟩ | ⟨rest, same, behind⟩
    · exact moved.restarts here important
    · cases rest with
      | nil =>
        rw [List.nil_append] at behind
        have split : emitted = [] ++ .enqueued frame outcome :: after := behind.symm
        exact moved.restarts split important
      | cons head front =>
        obtain ⟨rfl, rfl⟩ := List.cons.inj behind
        exact (ordered.restarted before frame outcome front same important).step moved important

/-- Frames leave the queue in the order in which they were accepted, each at most once; from the
moment an important frame is accepted only it and later frames leave, it first unless another
important frame or a clearing of everything comes; the queue stays bounded. -/
theorem frames_in_order (queueSize : Nat) (actions : List (Action Sample)) :
    InOrder queueSize (run queueSize actions).2 (run queueSize actions).1.queue := by
  have ordered := Runs.run_invariant_of_forall (SampleQueue.step queueSize)
    (fun log (s : Sender Sample) => InOrder queueSize log s.queue)
    (fun _ s action ordered => ordered.step (step_moved queueSize s action)) [] .new actions
    ⟨.slnil, Nat.zero_le _, fun _ _ _ _ impossible => by simp at impossible⟩
  rwa [List.nil_append] at ordered

end Order

end SampleQueue

end BetterParsec
