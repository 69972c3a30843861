import BetterParsec.App.Supervisor

set_option autoImplicit false
set_option linter.all false

/-!
# Truthfulness of the supervision state

What holds whenever the mutex is free. At most one spawn is in flight and no
child is tracked meanwhile; the reported state, however, runs behind the tracked
child between the two critical sections of `poll` and `stop`.
-/

namespace BetterParsec

namespace Inner

variable (inner : Inner) (now : Nat)

@[simp] theorem scheduleRestart_child : (inner.scheduleRestart now).1.child = inner.child := by
  unfold scheduleRestart
  split <;> rfl

@[simp] theorem scheduleRestart_spawning :
    (inner.scheduleRestart now).1.spawning = inner.spawning := by
  unfold scheduleRestart
  split <;> rfl

@[simp] theorem scheduleRestart_state : (inner.scheduleRestart now).1.state =
    if inner.budget.exhausted now then .failed else .restarting := by
  unfold scheduleRestart RestartBudget.recordAndCheck
  split_ifs <;> rfl

@[simp] theorem commitSpawnResult_spawning (result : Except String Nat) :
    (inner.commitSpawnResult result now).1.spawning = false := by
  cases result with
  | ok pid => rfl
  | error error =>
    simp only [commitSpawnResult, spawnFailed]
    split_ifs <;> simp

@[simp] theorem noteEmbeddedServerAlive_child (alive : Bool) :
    (inner.noteEmbeddedServerAlive alive).child = inner.child := by
  simp only [noteEmbeddedServerAlive]
  split_ifs <;> rfl

@[simp] theorem noteEmbeddedServerAlive_spawning (alive : Bool) :
    (inner.noteEmbeddedServerAlive alive).spawning = inner.spawning := by
  simp only [noteEmbeddedServerAlive]
  split_ifs <;> rfl

-- `Healthy` is claimed of a tracked child only, `Stopped` and `Failed` only without one.
structure Truthful (inner : Inner) : Prop where
  healthy : inner.state = .healthy → inner.child.isSome ∧ inner.embeddedServerAlive
  down : inner.state = .stopped ∨ inner.state = .failed → inner.child = none

variable {inner}

theorem truthful_up (state : inner.state = inner.deriveUpState) (child : inner.child.isSome) :
    inner.Truthful := by
  constructor
  · intro healthy
    refine ⟨child, ?_⟩
    by_contra down
    simp [state, deriveUpState, down] at healthy
  · intro down
    simp only [state, deriveUpState] at down
    split_ifs at down <;> simp at down

theorem truthful_vacant_iff (vacant : inner.child = none) :
    inner.Truthful ↔ inner.state ≠ .healthy := by
  constructor
  · intro truthful healthy
    have tracked := (truthful.healthy healthy).1
    simp [vacant] at tracked
  · intro other
    exact ⟨fun healthy => absurd healthy other, fun _ => vacant⟩

theorem truthful_down_iff (down : inner.state = .stopped ∨ inner.state = .failed) :
    inner.Truthful ↔ inner.child = none := by
  constructor
  · intro truthful
    exact truthful.down down
  · intro vacant
    rw [truthful_vacant_iff vacant]
    obtain state | state := down <;> simp [state]

theorem Truthful.noteEmbeddedServerAlive (truthful : inner.Truthful) (alive : Bool) :
    (inner.noteEmbeddedServerAlive alive).Truthful := by
  simp only [Inner.noteEmbeddedServerAlive]
  split_ifs with up
  · simp only [Bool.and_eq_true] at up
    exact truthful_up rfl up.1
  · refine ⟨fun healthy => ?_, truthful.down⟩
    -- A healthy state has a child, so its liveness would have been derived anew.
    simp [(truthful.healthy healthy).1, show inner.state = .healthy from healthy] at up

variable (inner)

theorem truthful_scheduleRestart_iff :
    (inner.scheduleRestart now).1.Truthful ↔
      inner.child = none ∨ inner.budget.exhausted now = false := by
  cases full : inner.budget.exhausted now with
  | true =>
    have failed : (inner.scheduleRestart now).1.state = .failed := by simp [full]
    simp [truthful_down_iff (Or.inr failed)]
  | false =>
    have restarting : (inner.scheduleRestart now).1.Truthful := by
      constructor <;> simp [full]
    simp [restarting]

theorem truthful_commit (result : Except String Nat) (vacant : inner.child = none) :
    (inner.commitSpawnResult result now).1.Truthful := by
  cases result with
  | ok pid => exact truthful_up rfl rfl
  | error error =>
    simp only [commitSpawnResult, spawnFailed]
    split_ifs
    · exact (truthful_scheduleRestart_iff _ now).mpr (Or.inl vacant)
    · exact (truthful_down_iff (Or.inr rfl)).mpr vacant

end Inner

def PendingCall.spawns : PendingCall → Bool
  | .spawn _ | .commit _ _ => true
  | .reaped _ | .stopping => false

namespace Supervision

-- The `spawning` flag stands for the one spawn in flight, which finds no child tracked.
structure Exclusive (world : Supervision) : Prop where
  flagged : ∀ ticket call, world.calls.lookup ticket = some call → call.spawns →
    world.inner.spawning
  alone : ∀ ticket other call otherCall, world.calls.lookup ticket = some call → call.spawns →
    world.calls.lookup other = some otherCall → otherCall.spawns → ticket = other
  vacant : world.inner.spawning → world.inner.child = none
  issued : ∀ ticket call, world.calls.lookup ticket = some call → ticket < world.nextTicket

theorem exclusive_new (budget : RestartBudget) : (new budget).Exclusive := by
  constructor <;> simp [new, Inner.new]

variable {world : Supervision}

theorem Exclusive.amend (exclusive : world.Exclusive) (inner : Inner) (running : List Nat)
    (same : inner.spawning = world.inner.spawning) (vacant : inner.spawning → inner.child = none) :
    { world with inner := inner, running := running }.Exclusive := by
  refine ⟨fun ticket call found spawns => ?_, exclusive.alone, vacant, exclusive.issued⟩
  rw [same]
  exact exclusive.flagged ticket call found spawns

/-- A call that spawns is suspended only when no other one is in flight. -/
theorem Exclusive.suspend (exclusive : world.Exclusive) (inner : Inner) (call : PendingCall)
    (vacant : inner.spawning → inner.child = none)
    (kept : world.inner.spawning → inner.spawning)
    (fresh : call.spawns → world.inner.spawning = false ∧ inner.spawning) :
    (world.suspend inner call).Exclusive := by
  have first (ticket : Nat) (other : PendingCall)
      (found : world.calls.lookup ticket = some other) (spawns : other.spawns)
      (again : call.spawns) : False := by
    have flagged := exclusive.flagged ticket other found spawns
    simp [(fresh again).1] at flagged
  refine ⟨fun ticket other found spawns => ?_, fun ticket other a b foundA spawnsA foundB spawnsB =>
    ?_, vacant, fun ticket other found => ?_⟩
  · simp only [Supervision.suspend, Assoc.lookup_insert_some] at found ⊢
    obtain ⟨-, rfl⟩ | ⟨-, found⟩ := found
    · exact (fresh spawns).2
    · exact kept (exclusive.flagged ticket other found spawns)
  · simp only [Supervision.suspend, Assoc.lookup_insert_some] at foundA foundB
    obtain ⟨rfl, rfl⟩ | ⟨-, foundA⟩ := foundA
    · obtain ⟨rfl, -⟩ | ⟨-, foundB⟩ := foundB
      · rfl
      · exact (first other b foundB spawnsB spawnsA).elim
    · obtain ⟨rfl, rfl⟩ | ⟨-, foundB⟩ := foundB
      · exact (first ticket a foundA spawnsA spawnsB).elim
      · exact exclusive.alone ticket other a b foundA spawnsA foundB spawnsB
  · simp only [Supervision.suspend, Assoc.lookup_insert_some] at found ⊢
    obtain ⟨rfl, -⟩ | ⟨-, found⟩ := found
    · exact Nat.lt_succ_self _
    · exact Nat.lt_succ_of_lt (exclusive.issued ticket other found)

theorem Exclusive.finish (exclusive : world.Exclusive) (ticket : Nat) (inner : Inner)
    (vacant : inner.spawning → inner.child = none)
    (others : ∀ other call, other ≠ ticket → world.calls.lookup other = some call → call.spawns →
      inner.spawning) :
    (world.finish ticket inner).Exclusive := by
  refine ⟨fun other call found spawns => ?_, fun a b callA callB foundA spawnsA foundB spawnsB =>
    ?_, vacant, fun other call found => ?_⟩
  · simp only [Supervision.finish, Assoc.lookup_erase_some] at found
    exact others other call found.1 found.2 spawns
  · simp only [Supervision.finish, Assoc.lookup_erase_some] at foundA foundB
    exact exclusive.alone a b callA callB foundA.2 spawnsA foundB.2 spawnsB
  · simp only [Supervision.finish, Assoc.lookup_erase_some] at found
    exact exclusive.issued other call found.2

/-- A spawn in flight goes on to its commit. -/
theorem Exclusive.advance (exclusive : world.Exclusive) {ticket : Nat} {call next : PendingCall}
    (found : world.calls.lookup ticket = some call) (spawns : call.spawns) (running : List Nat)
    (nextPid : Nat) :
    { world with
      calls := world.calls.insert ticket next
      running := running
      nextPid := nextPid }.Exclusive := by
  have place (other : Nat) (value : PendingCall)
      (lookup : (world.calls.insert ticket next).lookup other = some value)
      (again : value.spawns) :
      ∃ before, world.calls.lookup other = some before ∧ before.spawns := by
    rw [Assoc.lookup_insert_some] at lookup
    obtain ⟨rfl, -⟩ | ⟨-, lookup⟩ := lookup
    · exact ⟨call, found, spawns⟩
    · exact ⟨value, lookup, again⟩
  refine ⟨fun other value lookup again => ?_, fun a b callA callB foundA spawnsA foundB spawnsB =>
    ?_, exclusive.vacant, fun other value lookup => ?_⟩
  · obtain ⟨before, lookup, again⟩ := place other value lookup again
    exact exclusive.flagged other before lookup again
  · obtain ⟨beforeA, foundA, spawnsA⟩ := place a callA foundA spawnsA
    obtain ⟨beforeB, foundB, spawnsB⟩ := place b callB foundB spawnsB
    exact exclusive.alone a b beforeA beforeB foundA spawnsA foundB spawnsB
  · simp only [Assoc.lookup_insert_some] at lookup
    obtain ⟨rfl, -⟩ | ⟨-, lookup⟩ := lookup
    · exact exclusive.issued other call found
    · exact exclusive.issued other value lookup

theorem Exclusive.poll (exclusive : world.Exclusive) (now : Nat) (exitCode : Option Int) :
    (world.poll now exitCode).1.Exclusive := by
  unfold Supervision.poll
  cases child : world.inner.child with
  | some pid =>
    have idle : world.inner.spawning = false := by
      by_contra spawning
      simp [exclusive.vacant (by simpa using spawning)] at child
    dsimp only
    split_ifs
    · exact exclusive.amend _ world.running rfl exclusive.vacant
    · exact exclusive.suspend _ (.reaped now) (fun _ => rfl) id (by simp [PendingCall.spawns])
  | none =>
    dsimp only
    split_ifs with respawns
    · simp only [Inner.respawns, Bool.and_eq_true, Bool.not_eq_true'] at respawns
      exact exclusive.suspend _ (.spawn (some now)) (fun _ => child) (fun _ => rfl)
        (fun _ => ⟨respawns.1.2, rfl⟩)
    · exact exclusive

theorem Exclusive.stop (exclusive : world.Exclusive) (exitCode : Option Int) :
    (world.stop exitCode).1.Exclusive := by
  unfold Supervision.stop
  cases child : world.inner.child with
  | some pid =>
    have killed : (world.kill pid).Exclusive :=
      exclusive.amend world.inner _ rfl exclusive.vacant
    exact killed.suspend _ .stopping (fun _ => rfl) id (by simp [PendingCall.spawns])
  | none =>
    refine ⟨exclusive.flagged, exclusive.alone, exclusive.vacant, fun ticket call found => ?_⟩
    exact Nat.lt_succ_of_lt (exclusive.issued ticket call found)

theorem Exclusive.spawned (exclusive : world.Exclusive) (ticket : Nat) (failure : Option String) :
    (world.spawned ticket failure).Exclusive := by
  unfold Supervision.spawned
  cases found : world.calls.lookup ticket with
  | none => exact exclusive
  | some call =>
    cases call with
    | spawn pollAt =>
      cases failure with
      | some error => exact exclusive.advance found rfl world.running world.nextPid
      | none => exact exclusive.advance found rfl _ _
    | commit | reaped | stopping => exact exclusive

theorem Exclusive.resume (exclusive : world.Exclusive) (ticket now : Nat) :
    (world.resume ticket now).1.Exclusive := by
  unfold Supervision.resume
  cases found : world.calls.lookup ticket with
  | none => exact exclusive
  | some call =>
    cases call with
    | spawn => exact exclusive
    | commit result pollAt =>
      apply exclusive.finish ticket
      · simp
      · -- The committing call was the only spawn in flight.
        intro other call different lookup spawns
        exact absurd (exclusive.alone other ticket call _ lookup spawns found rfl) different
    | reaped pollAt =>
      apply exclusive.finish ticket
      · simpa using exclusive.vacant
      · intro other call different lookup spawns
        simpa using exclusive.flagged other call lookup spawns
    | stopping =>
      apply exclusive.finish ticket
      · exact exclusive.vacant
      · intro other call different lookup spawns
        exact exclusive.flagged other call lookup spawns

theorem Exclusive.step (exclusive : world.Exclusive) (input : SupervisorStep) :
    (world.step input).1.Exclusive := by
  cases input with
  | start =>
    simp only [Supervision.step, Supervision.start]
    split_ifs with occupied
    · exact exclusive
    · have free : world.inner.child = none ∧ world.inner.spawning = false := by
        simpa [Inner.occupied] using occupied
      exact exclusive.suspend _ (.spawn none) (fun _ => free.1) (fun _ => rfl)
        (fun _ => ⟨free.2, rfl⟩)
  | poll now exitCode => exact exclusive.poll now exitCode
  | noteEmbeddedServerAlive alive =>
    apply exclusive.amend _ world.running
    · simp
    · simpa using exclusive.vacant
  | stop exitCode => exact exclusive.stop exitCode
  | snapshot now => exact exclusive.amend _ world.running rfl exclusive.vacant
  | spawned ticket failure => exact exclusive.spawned ticket failure
  | resume ticket now => exact exclusive.resume ticket now
  | die pid => exact exclusive.amend world.inner _ rfl exclusive.vacant

-- The steps that leave a state behind which the tracked child contradicts.
def Contradicts (world : Supervision) : SupervisorStep → Prop
  | .poll _ _ => world.inner.state = .healthy ∧
      ∃ pid, world.inner.child = some pid ∧ pid ∉ world.running
  | .stop _ => world.inner.state = .healthy ∧ world.inner.child.isSome
  | .resume ticket _ => world.inner.child.isSome ∧
      (world.calls.lookup ticket = some .stopping ∨
        ∃ now, world.calls.lookup ticket = some (.reaped now) ∧ world.inner.budget.exhausted now)
  | .start | .noteEmbeddedServerAlive _ | .snapshot _ | .spawned _ _ | .die _ => False

theorem truthful_poll_iff (truthful : world.inner.Truthful) (now : Nat) (exitCode : Option Int) :
    (world.poll now exitCode).1.inner.Truthful ↔ ¬ world.Contradicts (.poll now exitCode) := by
  unfold Supervision.poll Contradicts
  cases child : world.inner.child with
  | some pid =>
    dsimp only
    split_ifs with alive
    · have up : (world.inner.pollRunning now).Truthful :=
        Inner.truthful_up rfl (by simp [Inner.pollRunning, child])
      simp [up, alive]
    · have reaped : (world.inner.reap pid exitCode).Truthful ↔ world.inner.state ≠ .healthy :=
        Inner.truthful_vacant_iff rfl
      simpa [Supervision.suspend, alive] using reaped
  | none =>
    dsimp only
    split_ifs
    · have respawning : world.inner.beginRespawn.Truthful := ⟨truthful.healthy, truthful.down⟩
      simpa [Supervision.suspend] using respawning
    · simpa using truthful

theorem truthful_stop_iff (exitCode : Option Int) :
    (world.stop exitCode).1.inner.Truthful ↔ ¬ world.Contradicts (.stop exitCode) := by
  unfold Supervision.stop Contradicts
  cases child : world.inner.child with
  | some pid =>
    have dropped : world.inner.dropChild.Truthful ↔ world.inner.state ≠ .healthy :=
      Inner.truthful_vacant_iff rfl
    simpa [Supervision.suspend] using dropped
  | none =>
    have stopped : world.inner.finishStop.Truthful :=
      (Inner.truthful_down_iff (Or.inl rfl)).mpr child
    simpa using stopped

theorem truthful_resume_iff (exclusive : world.Exclusive) (truthful : world.inner.Truthful)
    (ticket now : Nat) :
    (world.resume ticket now).1.inner.Truthful ↔ ¬ world.Contradicts (.resume ticket now) := by
  simp only [Supervision.resume, Contradicts]
  cases found : world.calls.lookup ticket with
  | none => simpa [found] using truthful
  | some call =>
    cases call with
    | spawn => simpa [found] using truthful
    | commit result pollAt =>
      have vacant := exclusive.vacant (exclusive.flagged ticket _ found rfl)
      have committed := world.inner.truthful_commit (pollAt.getD now) result vacant
      simpa [found, Supervision.finish] using committed
    | reaped pollAt =>
      have scheduled := world.inner.truthful_scheduleRestart_iff pollAt
      simpa [found, Supervision.finish, Option.isSome_iff_ne_none, imp_iff_not_or] using scheduled
    | stopping =>
      have stopped : world.inner.finishStop.Truthful ↔ world.inner.child = none :=
        Inner.truthful_down_iff (Or.inl rfl)
      simpa [found, Supervision.finish, Option.isSome_iff_ne_none] using stopped

theorem spawned_inner (ticket : Nat) (failure : Option String) :
    (world.spawned ticket failure).inner = world.inner := by
  unfold Supervision.spawned
  split
  · split <;> rfl
  all_goals rfl

/-- One step keeps the state truthful exactly if it is none of those. -/
theorem truthful_step_iff (exclusive : world.Exclusive) (truthful : world.inner.Truthful)
    (input : SupervisorStep) :
    (world.step input).1.inner.Truthful ↔ ¬ world.Contradicts input := by
  cases input with
  | start =>
    simp only [Supervision.step, Supervision.start, Contradicts]
    split_ifs
    · simpa using truthful
    · have starting : world.inner.beginStart.Truthful := by
        constructor <;> simp [Inner.beginStart]
      simpa [Supervision.suspend] using starting
  | poll now exitCode => exact truthful_poll_iff truthful now exitCode
  | noteEmbeddedServerAlive alive =>
    simpa [Supervision.step, Contradicts] using truthful.noteEmbeddedServerAlive alive
  | stop exitCode => exact truthful_stop_iff exitCode
  | snapshot now =>
    have counted : (world.inner.countRestarts now).Truthful := ⟨truthful.healthy, truthful.down⟩
    simpa [Supervision.step, Contradicts] using counted
  | spawned ticket failure =>
    simpa [Supervision.step, Contradicts, spawned_inner] using truthful
  | resume ticket now => exact truthful_resume_iff exclusive truthful ticket now
  | die pid => simpa [Supervision.step, Contradicts, Supervision.kill] using truthful

/-- In every interleaving, the states between two critical sections are truthful exactly as long as
none of those steps is taken. -/
theorem run_truthful_iff (budget : RestartBudget) (steps : List SupervisorStep) :
    (∀ taken, taken <+: steps → (Runs.run step (new budget) taken).1.inner.Truthful) ↔
      Runs.Along step (fun _ world input => ¬ world.Contradicts input) [] (new budget) steps := by
  apply Runs.along_iff_states step (fun world => world.inner.Truthful) Exclusive
  · exact fun _ input exclusive => exclusive.step input
  · exact fun _ _ input exclusive truthful => truthful_step_iff exclusive truthful input
  · exact exclusive_new budget
  · constructor <;> simp [new, Inner.new]

/-- The child has died; the poll that finds out forgets it before it changes the state. -/
theorem run_healthy_without_child :
    ¬ ∀ taken, taken <+: [.start, .spawned 0 none, .resume 0 1, .die 0, .poll 2 (some 1)] →
      (Runs.run step (new (.new 3 60000)) taken).1.inner.Truthful := by
  intro truthful
  have last := truthful _ (List.prefix_refl _)
  have state : (Runs.run step (new (.new 3 60000))
      [.start, .spawned 0 none, .resume 0 1, .die 0, .poll 2 (some 1)]).1.inner.state = .healthy := by
    decide
  have child : (Runs.run step (new (.new 3 60000))
      [.start, .spawned 0 none, .resume 0 1, .die 0, .poll 2 (some 1)]).1.inner.child = none := by
    decide
  have tracked := (last.healthy state).1
  simp [child] at tracked

end Supervision

end BetterParsec
