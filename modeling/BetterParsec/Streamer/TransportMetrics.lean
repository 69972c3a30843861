import BetterParsec.Streamer.SampleQueue

set_option autoImplicit false
set_option linter.all false

/-!
# The counters of the video transport

`VideoTransportMetrics` of `metrics.rs`, as the queue before a track and its tasks use it. Every
counter is one atomic integer; a snapshot swaps one after the other while the rest goes on.
-/

namespace BetterParsec

namespace TransportMetrics

open SampleQueue

inductive Counter where
  | inFlightFrames
  | encodedFramesReceived
  | encodedPayloadBytesReceived
  | framesAccepted
  | framesRejected
  | framesReplaced
  | framesCleared
  | framesDequeued
  | idrFramesReceived
  | idrEncodedPayloadBytesReceived
  | idrFramesAccepted
  | idrRtpPayloadBytesAccepted
  | rtpPacketsDequeued
  | rtpPayloadBytesDequeued
  | rtpPacketsWriteSucceeded
  | rtpPayloadBytesWriteSucceeded
  | rtpPacketsWriteFailed
  | rtpPayloadBytesWriteFailed
  | rtpPacketsWriteSkipped
  | rtpPayloadBytesWriteSkipped
  deriving DecidableEq

inductive Access where
  | fetchAdd (counter : Counter) (amount : Nat)
  -- `fetch_sub(1)`
  | fetchSub (counter : Counter)
  | swap (counter : Counter)
  deriving DecidableEq

structure VideoTransportMetrics where
  held : Counter → Nat
  -- The sum of what the snapshots took.
  reported : Counter → Nat

def VideoTransportMetrics.new : VideoTransportMetrics := ⟨fun _ => 0, fun _ => 0⟩

def perform (metrics : VideoTransportMetrics) : Access → VideoTransportMetrics
  | .fetchAdd counter amount =>
    { metrics with
      held := Function.update metrics.held counter ((metrics.held counter + amount) % 2 ^ 64) }
  | .fetchSub counter =>
    { metrics with
      held := Function.update metrics.held counter
        ((metrics.held counter + (2 ^ 64 - 1)) % 2 ^ 64) }
  | .swap counter =>
    ⟨Function.update metrics.held counter 0,
      Function.update metrics.reported counter
        (metrics.reported counter + metrics.held counter)⟩

def performs (metrics : VideoTransportMetrics) (accesses : List Access) : VideoTransportMetrics :=
  accesses.foldl perform metrics

def recordEncodedFrame (encodedBytes : Nat) (isIdr : Bool) : List Access :=
  [Access.fetchAdd .encodedFramesReceived 1, .fetchAdd .encodedPayloadBytesReceived encodedBytes] ++
    if isIdr then
      [Access.fetchAdd .idrFramesReceived 1, .fetchAdd .idrEncodedPayloadBytesReceived encodedBytes]
    else []

def recordEnqueue (accepted isIdr : Bool) (rtpPayloadBytes replacedFrames : Nat) : List Access :=
  (if accepted then
      Access.fetchAdd .framesAccepted 1 ::
        if isIdr then
          [.fetchAdd .idrFramesAccepted 1, .fetchAdd .idrRtpPayloadBytesAccepted rtpPayloadBytes]
        else []
    else [Access.fetchAdd .framesRejected 1]) ++
    [Access.fetchAdd .framesReplaced replacedFrames]

def recordClear (clearedFrames : Nat) : List Access :=
  [.fetchAdd .framesCleared clearedFrames]

def recordDequeue (rtpPackets rtpPayloadBytes : Nat) : List Access :=
  [.fetchAdd .framesDequeued 1, .fetchAdd .rtpPacketsDequeued rtpPackets,
    .fetchAdd .rtpPayloadBytesDequeued rtpPayloadBytes, .fetchAdd .inFlightFrames 1]

def recordWriteSucceeded (rtpPayloadBytes : Nat) : List Access :=
  [.fetchAdd .rtpPacketsWriteSucceeded 1,
    .fetchAdd .rtpPayloadBytesWriteSucceeded rtpPayloadBytes]

def recordWriteFailed (rtpPayloadBytes : Nat) : List Access :=
  [.fetchAdd .rtpPacketsWriteFailed 1, .fetchAdd .rtpPayloadBytesWriteFailed rtpPayloadBytes]

def recordWriteSkipped (rtpPayloadBytes : Nat) : List Access :=
  [.fetchAdd .rtpPacketsWriteSkipped 1, .fetchAdd .rtpPayloadBytesWriteSkipped rtpPayloadBytes]

def recordFrameWriteFinished : List Access := [.fetchSub .inFlightFrames]

-- The counters that `take_snapshot` swaps, in its order.
def takeSnapshot : List Counter :=
  [.framesRejected, .framesReplaced, .framesCleared, .encodedFramesReceived,
    .encodedPayloadBytesReceived, .framesAccepted, .framesDequeued, .idrFramesReceived,
    .idrEncodedPayloadBytesReceived, .idrFramesAccepted, .idrRtpPayloadBytesAccepted,
    .rtpPacketsDequeued, .rtpPayloadBytesDequeued, .rtpPacketsWriteSucceeded,
    .rtpPayloadBytesWriteSucceeded, .rtpPacketsWriteFailed, .rtpPayloadBytesWriteFailed,
    .rtpPacketsWriteSkipped, .rtpPayloadBytesWriteSkipped]

variable {Sample : Type} (samplePayloadLen : Sample → Nat)

def payloadLen (samples : List Sample) : Nat := (samples.map samplePayloadLen).sum

-- What the queue and its tasks record of an entry.
def record : SampleQueue.Entry Sample → List Access
  | .enqueued frame outcome =>
    recordEnqueue outcome.accepted frame.important (payloadLen samplePayloadLen frame.samples)
      outcome.replacedFrames
  | .cleared _ frames => recordClear frames
  | .dequeued frame =>
    recordDequeue frame.samples.length (payloadLen samplePayloadLen frame.samples)
  | .wrote sample .written => recordWriteSucceeded (samplePayloadLen sample)
  | .wrote sample .failed => recordWriteFailed (samplePayloadLen sample)
  | .wrote sample .skipped => recordWriteSkipped (samplePayloadLen sample)
  | .finished => recordFrameWriteFinished

section Counting

-- What an access adds to a counter, or to what was reported of it.
def contribution (counter : Counter) : Access → Int
  | .fetchAdd other amount => if other = counter then amount else 0
  | .fetchSub other => if other = counter then -1 else 0
  | .swap _ => 0

def total (counter : Counter) (accesses : List Access) : Int :=
  (accesses.map (contribution counter)).sum

@[simp] theorem total_append (counter : Counter) (first second : List Access) :
    total counter (first ++ second) = total counter first + total counter second := by
  rw [total, List.map_append, List.sum_append]
  rfl

@[simp] theorem total_nil (counter : Counter) : total counter [] = 0 := rfl

@[simp] theorem total_cons (counter : Counter) (access : Access) (rest : List Access) :
    total counter (access :: rest) = contribution counter access + total counter rest := by
  rw [total, List.map_cons, List.sum_cons]
  rfl

-- What a counter holds and what was reported of it.
def VideoTransportMetrics.counted (metrics : VideoTransportMetrics) (counter : Counter) : Int :=
  metrics.reported counter + metrics.held counter

variable (metrics : VideoTransportMetrics) (counter : Counter)

theorem counted_perform (access : Access) :
    (perform metrics access).counted counter ≡
      metrics.counted counter + contribution counter access [ZMOD 2 ^ 64] := by
  cases access with
  | fetchAdd other amount =>
    by_cases same : other = counter
    · subst same
      simp only [perform, VideoTransportMetrics.counted, Function.update_self, contribution,
        if_true]
      unfold Int.ModEq
      omega
    · simp only [perform, VideoTransportMetrics.counted, Function.update_of_ne (Ne.symm same),
        contribution, if_neg same, Int.add_zero]
      rfl
  | fetchSub other =>
    by_cases same : other = counter
    · subst same
      simp only [perform, VideoTransportMetrics.counted, Function.update_self, contribution,
        if_true]
      unfold Int.ModEq
      omega
    · simp only [perform, VideoTransportMetrics.counted, Function.update_of_ne (Ne.symm same),
        contribution, if_neg same, Int.add_zero]
      rfl
  | swap other =>
    by_cases same : other = counter
    · subst same
      simp [perform, VideoTransportMetrics.counted, contribution]
    · simp [perform, VideoTransportMetrics.counted, Function.update_of_ne (Ne.symm same),
        contribution]

theorem counted_performs (accesses : List Access) :
    (performs metrics accesses).counted counter ≡
      metrics.counted counter + total counter accesses [ZMOD 2 ^ 64] := by
  induction accesses generalizing metrics with
  | nil =>
    rw [total_nil, Int.add_zero]
    rfl
  | cons access rest ih =>
    rw [performs, List.foldl_cons, total_cons, ← Int.add_assoc]
    exact (ih (perform metrics access)).trans
      ((counted_perform metrics counter access).add_right (total counter rest))

theorem held_performs_lt (bounded : metrics.held counter < 2 ^ 64) (accesses : List Access) :
    (performs metrics accesses).held counter < 2 ^ 64 := by
  induction accesses generalizing metrics with
  | nil => exact bounded
  | cons access rest ih =>
    rw [performs, List.foldl_cons]
    refine ih (perform metrics access) ?_
    cases access <;> simp only [perform, Function.update_apply] <;> split <;> omega

-- A counter that no snapshot takes is not reported.
theorem reported_performs (accesses : List Access) (untaken : .swap counter ∉ accesses) :
    (performs metrics accesses).reported counter = metrics.reported counter := by
  induction accesses generalizing metrics with
  | nil => rfl
  | cons access rest ih =>
    rw [performs, List.foldl_cons]
    rw [List.mem_cons, not_or] at untaken
    refine (ih (perform metrics access) untaken.2).trans ?_
    cases access with
    | swap other =>
      have differs : counter ≠ other := fun same => untaken.1 (by rw [same])
      exact Function.update_of_ne differs _ _
    | _ => rfl

def Access.records : Access → Bool
  | .swap _ => false
  | _ => true

theorem total_filter_records (accesses : List Access) :
    total counter (accesses.filter Access.records) = total counter accesses := by
  induction accesses with
  | nil => rfl
  | cons access rest ih =>
    cases access with
    | swap other =>
      rw [List.filter_cons_of_neg (by simp [Access.records]), ih, total_cons]
      exact (Int.zero_add _).symm
    | _ => rw [List.filter_cons_of_pos rfl, total_cons, ih, total_cons]

theorem total_perm {first second : List Access} (same : first.Perm second) :
    total counter first = total counter second :=
  (same.map (contribution counter)).sum_eq

end Counting

section Accounts

-- The packets that a task has not written yet, weighted.
def unwritten (weight : List Sample → Nat) : SampleQueue.Phase Sample → Nat
  | .writing samples => weight samples
  | _ => 0

def sumOver (weight : List Sample → Nat) (tasks : List (SampleQueue.Phase Sample)) : Nat :=
  (tasks.map (unwritten weight)).sum

theorem sumOver_set {tasks : List (SampleQueue.Phase Sample)} {task : Nat}
    {old : SampleQueue.Phase Sample} (stood : tasks[task]? = some old)
    (weight : List Sample → Nat) (new : SampleQueue.Phase Sample) :
    sumOver weight (tasks.set task new) + unwritten weight old =
      sumOver weight tasks + unwritten weight new := by
  induction tasks generalizing task with
  | nil => cases stood
  | cons first rest ih =>
    cases task with
    | zero =>
      obtain rfl := Option.some.inj stood
      simp only [sumOver, List.set_cons_zero, List.map_cons, List.sum_cons]
      omega
    | succ task =>
      have within : rest[task]? = some old := by simpa using stood
      have later := ih within
      simp only [sumOver, List.set_cons_succ, List.map_cons, List.sum_cons] at later ⊢
      omega

def recorded (log : List (SampleQueue.Entry Sample)) : List Access :=
  log.flatMap (record samplePayloadLen)

@[simp] theorem recorded_append (first second : List (SampleQueue.Entry Sample)) :
    recorded samplePayloadLen (first ++ second) =
      recorded samplePayloadLen first ++ recorded samplePayloadLen second :=
  List.flatMap_append

@[simp] theorem recorded_cons (entry : SampleQueue.Entry Sample)
    (rest : List (SampleQueue.Entry Sample)) :
    recorded samplePayloadLen (entry :: rest) =
      record samplePayloadLen entry ++ recorded samplePayloadLen rest :=
  List.flatMap_cons

@[simp] theorem recorded_nil :
    recorded samplePayloadLen ([] : List (SampleQueue.Entry Sample)) = [] := rfl

-- The frames in the queue and the samples with the tasks account for what the counters differ by.
structure Balanced (accesses : List Access) (queued packets bytes writing : Nat) : Prop where
  frames : total .framesAccepted accesses = total .framesDequeued accesses +
    total .framesReplaced accesses + total .framesCleared accesses + queued
  packets : total .rtpPacketsDequeued accesses = total .rtpPacketsWriteSucceeded accesses +
    total .rtpPacketsWriteFailed accesses + total .rtpPacketsWriteSkipped accesses + packets
  bytes : total .rtpPayloadBytesDequeued accesses =
    total .rtpPayloadBytesWriteSucceeded accesses +
      total .rtpPayloadBytesWriteFailed accesses +
      total .rtpPayloadBytesWriteSkipped accesses + bytes
  inFlight : total .inFlightFrames accesses = writing

def Accounted (log : List (SampleQueue.Entry Sample)) (s : SampleQueue.Sender Sample) : Prop :=
  Balanced (recorded samplePayloadLen log) s.queue.length (sumOver List.length s.tasks)
    (sumOver (payloadLen samplePayloadLen) s.tasks) (sumOver (fun _ => 1) s.tasks)

variable {samplePayloadLen} {log : List (SampleQueue.Entry Sample)}
  {s : SampleQueue.Sender Sample} {task : Nat} {old : SampleQueue.Phase Sample}

-- A step that records nothing and leaves the frames and samples where they are.
theorem Accounted.quiet (held : Accounted samplePayloadLen log s) {next : SampleQueue.Sender Sample}
    (queue : next.queue = s.queue)
    (tasks : ∀ weight : List Sample → Nat, sumOver weight next.tasks = sumOver weight s.tasks) :
    Accounted samplePayloadLen (log ++ []) next := by
  rw [List.append_nil, Accounted, queue, tasks, tasks, tasks]
  exact held

theorem sumOver_idle (stood : s.tasks[task]? = some old) {new : SampleQueue.Phase Sample}
    (wasIdle : ∀ samples, old ≠ .writing samples) (isIdle : ∀ samples, new ≠ .writing samples)
    (weight : List Sample → Nat) : sumOver weight (s.tasks.set task new) = sumOver weight s.tasks := by
  have none : ∀ phase : SampleQueue.Phase Sample, (∀ samples, phase ≠ .writing samples) →
      unwritten weight phase = 0 := by
    intro phase idle
    cases phase with
    | writing samples => exact absurd rfl (idle samples)
    | _ => rfl
  have moved := sumOver_set stood weight new
  rwa [none old wasIdle, none new isIdle] at moved

-- With nothing to write the frame is finished at once.
theorem total_startWriting (counter : Counter) (samples : List Sample) :
    total counter (recorded samplePayloadLen (startWriting samples).2) =
      if counter = .inFlightFrames then ((if samples = [] then 0 else 1 : Nat) : Int) - 1
      else 0 := by
  cases samples with
  | nil =>
    cases counter <;> simp [startWriting, record, recordFrameWriteFinished, contribution]
  | cons sample later => simp [startWriting]

@[simp] theorem payloadLen_nil : payloadLen samplePayloadLen [] = 0 := rfl

@[simp] theorem payloadLen_cons (sample : Sample) (later : List Sample) :
    payloadLen samplePayloadLen (sample :: later) =
      samplePayloadLen sample + payloadLen samplePayloadLen later :=
  List.sum_cons

-- A task starts on samples, or has the rest of them still to write.
theorem sumOver_started (stood : s.tasks[task]? = some old) (samples : List Sample)
    (weight : List Sample → Nat) :
    sumOver weight (s.tasks.set task (startWriting samples).1) + unwritten weight old =
      sumOver weight s.tasks + if samples = [] then 0 else weight samples := by
  rw [sumOver_set stood]
  cases samples <;> rfl

theorem ite_nil_weight (samples : List Sample) {weight : List Sample → Nat}
    (empty : weight [] = 0) : (if samples = [] then 0 else weight samples) = weight samples := by
  split
  · rename_i none
    rw [none, empty]
  · rfl

theorem Accounted.looked (held : Accounted samplePayloadLen log s)
    (stood : s.tasks[task]? = some .looking) {frame : FrameSamples Sample}
    (found : s.queue.getLast? = some frame) :
    Accounted samplePayloadLen (log ++ Entry.dequeued frame :: (startWriting frame.samples).2)
      { s with
        queue := s.queue.dropLast
        tasks := s.tasks.set task (startWriting frame.samples).1 } := by
  have front : s.queue.length = s.queue.dropLast.length + 1 := by
    have full : s.queue ≠ [] := by
      rintro empty
      rw [empty] at found
      cases found
    have := List.length_pos_iff.mpr full
    rw [List.length_dropLast]
    omega
  obtain ⟨frames, packets, bytes, inFlight⟩ := held
  have lengths := sumOver_started stood frame.samples List.length
  have payloads := sumOver_started stood frame.samples (payloadLen samplePayloadLen)
  have count := sumOver_started stood frame.samples fun _ => 1
  rw [ite_nil_weight frame.samples rfl] at lengths payloads
  simp only [unwritten, Nat.add_zero] at lengths payloads count
  constructor <;>
    simp only [recorded_append, recorded_cons, total_append, total_startWriting, record,
      recordDequeue, total_cons, total_nil, contribution, if_true, reduceCtorEq, if_false] <;>
    omega

theorem Accounted.wrote (held : Accounted samplePayloadLen log s) {sample : Sample}
    {later : List Sample} (stood : s.tasks[task]? = some (.writing (sample :: later)))
    (outcome : TrackWriteOutcome) :
    Accounted samplePayloadLen (log ++ Entry.wrote sample outcome :: (startWriting later).2)
      { s with tasks := s.tasks.set task (startWriting later).1 } := by
  obtain ⟨frames, packets, bytes, inFlight⟩ := held
  have lengths := sumOver_started stood later List.length
  have payloads := sumOver_started stood later (payloadLen samplePayloadLen)
  have count := sumOver_started stood later fun _ => 1
  rw [ite_nil_weight later rfl] at lengths payloads
  simp only [unwritten, List.length_cons, payloadLen_cons] at lengths payloads count
  constructor <;> cases outcome <;>
    simp only [recorded_append, recorded_cons, total_append, total_startWriting, record,
      recordWriteSucceeded, recordWriteFailed, recordWriteSkipped, total_cons, total_nil,
      contribution, if_true, reduceCtorEq, if_false] <;>
    omega

theorem Accounted.enqueued (held : Accounted samplePayloadLen log s) (queueSize : Nat)
    (frame : FrameSamples Sample) (notifying : Bool) :
    Accounted samplePayloadLen
      (log ++ [Entry.enqueued frame (enqueueFrame s.queue queueSize frame).2])
      { s with
        queue := (enqueueFrame s.queue queueSize frame).1
        notifying := notifying } := by
  obtain ⟨frames, packets, bytes, inFlight⟩ := held
  by_cases important : frame.important = true
  · constructor <;>
      simp [enqueueFrame, important, record, recordEnqueue, contribution] <;> omega
  · by_cases crowded : queueSize ≤ s.queue.length
    · constructor <;>
        simp [enqueueFrame, important, crowded, record, recordEnqueue, contribution] <;> omega
    · constructor <;>
        simp [enqueueFrame, important, crowded, record, recordEnqueue, contribution] <;> omega

theorem Accounted.cleared (held : Accounted samplePayloadLen log s) (clearImportant : Bool)
    {kept : List (FrameSamples Sample)} (fewer : kept.length ≤ s.queue.length) :
    Accounted samplePayloadLen
      (log ++ [Entry.cleared clearImportant (s.queue.length - kept.length)])
      { s with queue := kept } := by
  obtain ⟨frames, packets, bytes, inFlight⟩ := held
  constructor <;> simp [record, recordClear, contribution] <;> omega

theorem Accounted.notified (held : Accounted samplePayloadLen log s) (attended : Attended s)
    (queueSize : Nat) (sending : s.notifying = true) :
    Accounted samplePayloadLen (log ++ []) (step queueSize s .notifyOne).1 := by
  cases waiting : s.notify.waiters with
  | nil =>
    rw [step_notifyOne_nil queueSize sending waiting]
    exact held.quiet rfl fun _ => rfl
  | cons first later =>
    rw [step_notifyOne_cons queueSize sending waiting]
    have stood : s.tasks[first]? = some .asleep :=
      (attended.waiters first).mp (by rw [waiting]; exact List.mem_cons_self)
    exact held.quiet rfl (sumOver_idle stood (by simp) (by simp))

theorem Accounted.step (held : Accounted samplePayloadLen log s) (attended : Attended s)
    (queueSize : Nat) (action : Action Sample) :
    Accounted samplePayloadLen (log ++ (SampleQueue.step queueSize s action).2)
      (SampleQueue.step queueSize s action).1 := by
  have still : Accounted samplePayloadLen (log ++ []) s := held.quiet rfl fun _ => rfl
  cases action with
  | createTrack => exact held.quiet rfl fun _ => by simp [SampleQueue.step, sumOver, unwritten]
  | sendSamples samples important =>
    rw [SampleQueue.step]
    split
    · exact still
    · exact held.enqueued queueSize ⟨important, samples⟩ _
  | notifyOne =>
    by_cases sending : s.notifying = true
    · have silent : (SampleQueue.step queueSize s .notifyOne).2 = [] := by
        simp only [SampleQueue.step, sending, Bool.not_true, Bool.false_eq_true, if_false]
      rw [silent]
      exact held.notified attended queueSize sending
    · simpa only [SampleQueue.step, sending, Bool.not_false, if_true] using still
  | clearQueue clearImportant =>
    rw [SampleQueue.step]
    split
    · exact still
    · refine held.cleared clearImportant ?_
      cases clearImportant with
      | true => exact Nat.zero_le _
      | false => exact List.length_filter_le _ _
  | look task =>
    rw [SampleQueue.step]
    split
    · rename_i stood
      split
      · exact still
      · split
        · exact held.quiet rfl (sumOver_idle stood (by simp) (by simp))
        · rename_i frame found
          exact held.looked stood found
    · exact still
  | rest task =>
    rw [SampleQueue.step]
    split
    · rename_i stood
      split <;> exact held.quiet rfl (sumOver_idle stood (by simp) (by simp))
    · exact still
  | write task outcome =>
    rw [SampleQueue.step]
    split
    · rename_i sample later stood
      exact held.wrote stood outcome
    · exact still

theorem run_accounted (samplePayloadLen : Sample → Nat) (queueSize : Nat)
    (actions : List (Action Sample)) :
    Accounted samplePayloadLen (run queueSize actions).2 (run queueSize actions).1 := by
  have both := Runs.run_invariant_of_forall (SampleQueue.step queueSize)
    (fun log (s : SampleQueue.Sender Sample) => Attended s ∧ Accounted samplePayloadLen log s)
    (fun _ _ action held => ⟨held.1.step queueSize action, held.2.step held.1 queueSize action⟩)
    [] .new actions ⟨initial_attended, ⟨rfl, rfl, rfl, rfl⟩⟩
  rw [List.nil_append] at both
  exact both.2

end Accounts

section Conservation

variable {samplePayloadLen}

-- What is recorded of the frames that come from the encoder.
def recordEncodedFrames (encoded : List (Nat × Bool)) : List Access :=
  encoded.flatMap fun frame => recordEncodedFrame frame.1 frame.2

theorem total_recordEncodedFrames (encoded : List (Nat × Bool)) {counter : Counter}
    (apart : counter ∉ [Counter.encodedFramesReceived, .encodedPayloadBytesReceived,
      .idrFramesReceived, .idrEncodedPayloadBytesReceived]) :
    total counter (recordEncodedFrames encoded) = 0 := by
  simp only [List.mem_cons, List.not_mem_nil, not_or, or_false] at apart
  induction encoded with
  | nil => rfl
  | cons frame rest ih =>
    change total counter (recordEncodedFrame frame.1 frame.2 ++ recordEncodedFrames rest) = 0
    rw [total_append, ih, recordEncodedFrame]
    obtain ⟨bytes, isIdr⟩ := frame
    cases isIdr <;> simp [contribution, Ne.symm apart.1, Ne.symm apart.2.1, Ne.symm apart.2.2.1,
      Ne.symm apart.2.2.2]

/-- In whatever order the accesses of a run and of any snapshots reach the counters, nothing is
lost: what was reported and what is held of the accepted frames is what was dequeued, replaced,
cleared and is in the queue, what was dequeued is what was written, failed, skipped and is with the
tasks, and the gauge counts the tasks that write. -/
theorem counts_conserved (samplePayloadLen : Sample → Nat) (queueSize : Nat)
    (actions : List (Action Sample)) (encoded : List (Nat × Bool)) (accesses : List Access)
    (recording : (accesses.filter Access.records).Perm
      (recorded samplePayloadLen (run queueSize actions).2 ++ recordEncodedFrames encoded))
    (taken : ∀ counter, .swap counter ∈ accesses → counter ∈ takeSnapshot) :
    let counted := (performs .new accesses).counted
    let s := (run queueSize actions).1
    counted .framesAccepted ≡ counted .framesDequeued + counted .framesReplaced +
        counted .framesCleared + s.queue.length [ZMOD 2 ^ 64] ∧
      counted .rtpPacketsDequeued ≡ counted .rtpPacketsWriteSucceeded +
        counted .rtpPacketsWriteFailed + counted .rtpPacketsWriteSkipped +
          sumOver List.length s.tasks [ZMOD 2 ^ 64] ∧
      counted .rtpPayloadBytesDequeued ≡ counted .rtpPayloadBytesWriteSucceeded +
        counted .rtpPayloadBytesWriteFailed + counted .rtpPayloadBytesWriteSkipped +
          sumOver (payloadLen samplePayloadLen) s.tasks [ZMOD 2 ^ 64] ∧
      (performs .new accesses).held .inFlightFrames = sumOver (fun _ => 1) s.tasks % 2 ^ 64 := by
  have balanced := run_accounted samplePayloadLen queueSize actions
  generalize (run queueSize actions).1 = s at *
  have count : ∀ counter, counter ∉ [Counter.encodedFramesReceived, .encodedPayloadBytesReceived,
      .idrFramesReceived, .idrEncodedPayloadBytesReceived] →
      (performs .new accesses).counted counter ≡
        total counter (recorded samplePayloadLen (run queueSize actions).2) [ZMOD 2 ^ 64] := by
    intro counter apart
    have reached := counted_performs .new counter accesses
    rw [← total_filter_records, total_perm counter recording, total_append,
      total_recordEncodedFrames encoded apart] at reached
    simpa [VideoTransportMetrics.counted, VideoTransportMetrics.new] using reached
  obtain ⟨frames, packets, bytes, inFlight⟩ := balanced
  refine ⟨?_, ?_, ?_, ?_⟩
  · refine (count _ (by decide)).trans ?_
    rw [frames]
    exact ((((count _ (by decide)).add (count _ (by decide))).add (count _ (by decide))).add_right
      _).symm
  · refine (count _ (by decide)).trans ?_
    rw [packets]
    exact ((((count _ (by decide)).add (count _ (by decide))).add (count _ (by decide))).add_right
      _).symm
  · refine (count _ (by decide)).trans ?_
    rw [bytes]
    exact ((((count _ (by decide)).add (count _ (by decide))).add (count _ (by decide))).add_right
      _).symm
  · have gauge := count .inFlightFrames (by decide)
    have untaken : .swap Counter.inFlightFrames ∉ accesses := fun swapped =>
      absurd (taken _ swapped) (by decide)
    rw [inFlight, VideoTransportMetrics.counted, reported_performs .new _ accesses untaken] at gauge
    have small := held_performs_lt .new Counter.inFlightFrames (Nat.two_pow_pos 64) accesses
    change ((0 : Nat) : Int) + ((performs .new accesses).held .inFlightFrames : Int) ≡ _
      [ZMOD 2 ^ 64] at gauge
    rw [Int.natCast_zero, Int.zero_add] at gauge
    have same : (performs .new accesses).held .inFlightFrames ≡ sumOver (fun _ => 1) s.tasks
        [MOD 2 ^ 64] := Int.natCast_modEq_iff.mp (by exact_mod_cast gauge)
    rw [← same, Nat.mod_eq_of_lt small]

-- The task takes the frame before its send has counted it, and a snapshot comes in between.
theorem counts_conserved_snapshot :
    (performs .new [.fetchAdd .framesDequeued 1, .fetchAdd .rtpPacketsDequeued 1,
      .fetchAdd .rtpPayloadBytesDequeued 3, .swap .framesAccepted, .fetchAdd .inFlightFrames 1,
      .fetchAdd .framesAccepted 1, .fetchAdd .idrFramesAccepted 1,
      .fetchAdd .idrRtpPayloadBytesAccepted 3,
      .fetchAdd .framesReplaced 0]).held .inFlightFrames = 1 :=
  (counts_conserved (fun sample : Nat => sample) 0
    [.createTrack, .sendSamples [3] true, .notifyOne, .look 0] [] _ (by decide)
    (fun counter swapped => by
      obtain rfl : counter = .framesAccepted := by simpa using swapped
      decide)).2.2.2

end Conservation

end TransportMetrics

end BetterParsec
