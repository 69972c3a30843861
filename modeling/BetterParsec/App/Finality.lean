import BetterParsec.App.Truthfulness

set_option autoImplicit false
set_option linter.all false

/-!
# Finality of a stop

A stop is final if nothing is under way when it takes the mutex: a spawn in
flight would install its child afterwards, and a poll that has already reaped a
child would schedule a restart.
-/

namespace BetterParsec

namespace Supervision

-- Every child that runs is tracked, or was just spawned by a call that has yet to commit it.
def Housed (world : Supervision) : Prop :=
  ∀ pid ∈ world.running, world.inner.child = some pid ∨
    ∃ ticket pollAt, world.calls.lookup ticket = some (.commit (.ok pid) pollAt)

-- Nothing is left to stop, and only other stops are under way.
structure Drained (world : Supervision) : Prop where
  child : world.inner.child = none
  running : world.running = []
  calls : ∀ ticket call, world.calls.lookup ticket = some call → call = .stopping

def stopsOnly (world : Supervision) : Bool :=
  world.calls.entries.all (fun entry => entry.2 = .stopping)

def stopUnderWay (world : Supervision) : Bool :=
  world.calls.entries.any (fun entry => entry.2 = .stopping)

-- A stop begins when neither a spawn nor a reaping poll is under way, and no poll respawns
-- between its two critical sections.
def StopsAlone (_ : List SupervisorLog) (world : Supervision) : SupervisorStep → Prop
  | .stop _ => world.stopsOnly
  | .poll now _ => world.inner.respawns now → world.stopUnderWay = false
  | .start | .noteEmbeddedServerAlive _ | .snapshot _ | .spawned _ _ | .resume _ _ | .die _ => True

instance (seen : List SupervisorLog) (world : Supervision) :
    (input : SupervisorStep) → Decidable (world.StopsAlone seen input)
  | .stop _ => inferInstanceAs (Decidable (world.stopsOnly = true))
  | .poll now _ =>
      inferInstanceAs (Decidable (world.inner.respawns now = true → world.stopUnderWay = false))
  | .start | .noteEmbeddedServerAlive _ | .snapshot _ | .spawned _ _ | .resume _ _ | .die _ =>
      .isTrue trivial

-- The stop with this ticket has begun and no start was called since.
def Quiet (log : List SupervisorLog) (ticket : Nat) : Prop :=
  ∃ before after, log = before ++ SupervisorLog.stopBegan ticket :: after ∧ .startCalled ∉ after

theorem quiet_append {log more : List SupervisorLog} {ticket : Nat}
    (quiet : Quiet (log ++ more) ticket) :
    Quiet log ticket ∧ .startCalled ∉ more ∨ .stopBegan ticket ∈ more := by
  obtain ⟨before, after, split, silent⟩ := quiet
  obtain ⟨middle, rfl, rest⟩ | ⟨middle, rfl, rest⟩ := List.append_eq_append_iff.mp split
  · right
    rw [rest]
    simp
  · cases middle with
    | nil =>
      right
      rw [List.nil_append] at rest
      simp [← rest]
    | cons first middle =>
      left
      rw [List.cons_append, List.cons.injEq] at rest
      obtain ⟨rfl, rfl⟩ := rest
      rw [List.mem_append, not_or] at silent
      exact ⟨⟨before, middle, rfl, silent.1⟩, silent.2⟩

variable {world : Supervision}

theorem stopsOnly_iff : world.stopsOnly ↔
    ∀ ticket call, world.calls.lookup ticket = some call → call = .stopping := by
  simp only [stopsOnly, List.all_eq_true, decide_eq_true_eq]
  constructor
  · intro each ticket call found
    exact each ⟨ticket, call⟩ (AList.mem_lookup_iff.mp found)
  · rintro each ⟨ticket, call⟩ member
    exact each ticket call (AList.mem_lookup_iff.mpr member)

theorem stopUnderWay_of_lookup {ticket : Nat} (found : world.calls.lookup ticket = some .stopping) :
    world.stopUnderWay := by
  rw [stopUnderWay, List.any_eq_true]
  exact ⟨⟨ticket, .stopping⟩, AList.mem_lookup_iff.mp found, rfl⟩

theorem lookup_suspend (exclusive : world.Exclusive) (inner : Inner) (call : PendingCall)
    {ticket : Nat} {other : PendingCall} (found : world.calls.lookup ticket = some other) :
    (world.suspend inner call).calls.lookup ticket = some other := by
  have old := exclusive.issued ticket other found
  simp only [suspend, Assoc.lookup_insert_some]
  exact Or.inr ⟨by omega, found⟩

theorem lookup_finish (inner : Inner) {ticket other : Nat} {call : PendingCall}
    (found : world.calls.lookup other = some call) (different : other ≠ ticket) :
    (world.finish ticket inner).calls.lookup other = some call := by
  simp only [finish, Assoc.lookup_erase_some]
  exact ⟨different, found⟩

theorem Housed.suspend (exclusive : world.Exclusive) (housed : world.Housed) (inner : Inner)
    (call : PendingCall)
    (moved : ∀ pid ∈ world.running, world.inner.child = some pid → inner.child = some pid) :
    (world.suspend inner call).Housed := by
  intro pid alive
  obtain tracked | ⟨ticket, pollAt, found⟩ := housed pid alive
  · exact Or.inl (moved pid alive tracked)
  · exact Or.inr ⟨ticket, pollAt, lookup_suspend exclusive inner call found⟩

theorem Housed.kill (housed : world.Housed) (pid : Nat) : (world.kill pid).Housed := by
  intro other alive
  exact housed other (List.mem_of_mem_filter alive)

theorem Housed.poll (exclusive : world.Exclusive) (housed : world.Housed) (now : Nat)
    (exitCode : Option Int) : (world.poll now exitCode).1.Housed := by
  unfold Supervision.poll
  cases child : world.inner.child with
  | some pid =>
    dsimp only
    split_ifs with alive
    · exact housed
    · apply housed.suspend exclusive
      intro other runs tracked
      rw [child, Option.some.injEq] at tracked
      exact absurd (tracked ▸ runs) alive
  | none =>
    dsimp only
    split_ifs
    · exact housed.suspend exclusive _ _ (fun _ _ tracked => tracked)
    · exact housed

theorem Housed.stop (exclusive : world.Exclusive) (housed : world.Housed) (exitCode : Option Int) :
    (world.stop exitCode).1.Housed := by
  unfold Supervision.stop
  cases child : world.inner.child with
  | some pid =>
    have killed : (world.kill pid).Exclusive :=
      exclusive.amend world.inner _ rfl exclusive.vacant
    apply (housed.kill pid).suspend killed
    intro other runs tracked
    have survivor : other ≠ pid := by simpa using (List.mem_filter.mp runs).2
    rw [show (world.kill pid).inner.child = some pid from child, Option.some.injEq] at tracked
    exact absurd tracked.symm survivor
  | none => exact housed

theorem Housed.spawned (housed : world.Housed) (ticket : Nat) (failure : Option String) :
    (world.spawned ticket failure).Housed := by
  unfold Supervision.spawned
  cases found : world.calls.lookup ticket with
  | none => exact housed
  | some call =>
    cases call with
    | commit | reaped | stopping => exact housed
    | spawn pollAt =>
      -- The ticket held no commit, so no other child loses its place.
      have kept (next : PendingCall) (pid : Nat) (alive : pid ∈ world.running) :
          world.inner.child = some pid ∨ ∃ other pollAt,
            (world.calls.insert ticket next).lookup other = some (.commit (.ok pid) pollAt) := by
        obtain tracked | ⟨other, otherAt, place⟩ := housed pid alive
        · exact Or.inl tracked
        · refine Or.inr ⟨other, otherAt, ?_⟩
          rw [Assoc.lookup_insert_some]
          refine Or.inr ⟨?_, place⟩
          rintro rfl
          simp [found] at place
      cases failure with
      | some error => exact kept (.commit (.error error) pollAt)
      | none =>
        intro pid alive
        obtain rfl | alive := List.mem_cons.mp alive
        · exact Or.inr ⟨ticket, pollAt, AList.lookup_insert _⟩
        · exact kept (.commit (.ok world.nextPid) pollAt) pid alive

theorem Housed.resume (exclusive : world.Exclusive) (housed : world.Housed) (ticket now : Nat) :
    (world.resume ticket now).1.Housed := by
  unfold Supervision.resume
  cases found : world.calls.lookup ticket with
  | none => exact housed
  | some call =>
    -- A call that was not a commit leaves every child where it was.
    have elsewhere (inner : Inner) (child : inner.child = world.inner.child)
        (other : call.spawns = false) : (world.finish ticket inner).Housed := by
      intro pid alive
      obtain tracked | ⟨holder, pollAt, place⟩ := housed pid alive
      · exact Or.inl (child.trans tracked)
      · refine Or.inr ⟨holder, pollAt, lookup_finish inner place ?_⟩
        rintro rfl
        rw [found, Option.some.injEq] at place
        simp [place, PendingCall.spawns] at other
    cases call with
    | spawn => exact housed
    | commit result pollAt =>
      intro pid alive
      have vacant := exclusive.vacant (exclusive.flagged ticket _ found rfl)
      obtain tracked | ⟨holder, holderAt, place⟩ := housed pid alive
      · simp [vacant] at tracked
      · -- The only spawn in flight is the one that commits.
        have same := exclusive.alone holder ticket _ _ place rfl found rfl
        rw [same, found, Option.some.injEq, PendingCall.commit.injEq] at place
        left
        simp [Supervision.finish, place.1, Inner.commitSpawnResult, Inner.installChild]
    | reaped pollAt => exact elsewhere _ (by simp) rfl
    | stopping => exact elsewhere _ rfl rfl

theorem Housed.step (exclusive : world.Exclusive) (housed : world.Housed) (input : SupervisorStep) :
    (world.step input).1.Housed := by
  cases input with
  | start =>
    simp only [Supervision.step, Supervision.start]
    split_ifs
    · exact housed
    · exact housed.suspend exclusive _ _ (fun _ _ tracked => tracked)
  | poll now exitCode => exact housed.poll exclusive now exitCode
  | noteEmbeddedServerAlive alive =>
    intro pid runs
    simpa [Supervision.step] using housed pid runs
  | stop exitCode => exact housed.stop exclusive exitCode
  | snapshot now => exact housed
  | spawned ticket failure => exact housed.spawned ticket failure
  | resume ticket now => exact housed.resume exclusive ticket now
  | die pid => exact housed.kill pid

/-- What a stop leaves behind when nothing else is under way. -/
theorem drained_stop (housed : world.Housed) (alone : world.stopsOnly) (exitCode : Option Int) :
    (world.stop exitCode).1.Drained := by
  have calls := stopsOnly_iff.mp alone
  have tracked (pid : Nat) (alive : pid ∈ world.running) : world.inner.child = some pid := by
    obtain tracked | ⟨ticket, pollAt, found⟩ := housed pid alive
    · exact tracked
    · have other := calls ticket _ found
      simp at other
  unfold Supervision.stop
  cases child : world.inner.child with
  | some pid =>
    refine ⟨rfl, ?_, fun ticket call found => ?_⟩
    · apply List.filter_eq_nil_iff.mpr
      intro other alive
      have same := tracked other alive
      rw [child, Option.some.injEq] at same
      simp [same]
    · simp only [Supervision.suspend, Assoc.lookup_insert_some] at found
      obtain ⟨-, rfl⟩ | ⟨-, found⟩ := found
      · rfl
      · exact calls ticket call found
  | none =>
    refine ⟨child, List.eq_nil_iff_forall_not_mem.mpr fun pid alive => ?_, calls⟩
    simpa [child] using tracked pid alive

/-- Without a start and without a respawn, a drained supervisor stays drained; its state changes to
`Stopped` only, and a stop leaves by setting it. -/
theorem Drained.step (drained : world.Drained) (input : SupervisorStep)
    (noStart : input ≠ .start)
    (noRespawn : ∀ now exitCode, input = .poll now exitCode → world.inner.respawns now = false) :
    (world.step input).1.Drained ∧
      ((world.step input).1.inner.state = .stopped ∨
        (world.step input).1.inner.state = world.inner.state ∧
          (world.step input).1.calls = world.calls) := by
  have noSpawn (ticket : Nat) (call : PendingCall)
      (found : world.calls.lookup ticket = some call) : call = .stopping :=
    drained.calls ticket call found
  cases input with
  | start => exact absurd rfl noStart
  | poll now exitCode =>
    have idle : world.poll now exitCode = (world, []) := by
      simp [Supervision.poll, drained.child, noRespawn now exitCode rfl]
    rw [Supervision.step, idle]
    exact ⟨drained, Or.inr ⟨rfl, rfl⟩⟩
  | noteEmbeddedServerAlive alive =>
    have same : (world.inner.noteEmbeddedServerAlive alive).state = world.inner.state := by
      simp [Inner.noteEmbeddedServerAlive, drained.child]
    exact ⟨⟨by simpa [Supervision.step] using drained.child, drained.running, drained.calls⟩,
      Or.inr ⟨same, rfl⟩⟩
  | stop exitCode =>
    simp only [Supervision.step, Supervision.stop, drained.child]
    exact ⟨⟨drained.child, drained.running, drained.calls⟩, Or.inl rfl⟩
  | snapshot now =>
    exact ⟨⟨drained.child, drained.running, drained.calls⟩, Or.inr ⟨rfl, rfl⟩⟩
  | spawned ticket failure =>
    have idle : world.spawned ticket failure = world := by
      unfold Supervision.spawned
      cases found : world.calls.lookup ticket with
      | none => rfl
      | some call => rw [noSpawn ticket call found]
    rw [Supervision.step, idle]
    exact ⟨drained, Or.inr ⟨rfl, rfl⟩⟩
  | resume ticket now =>
    simp only [Supervision.step, Supervision.resume]
    cases found : world.calls.lookup ticket with
    | none => exact ⟨drained, Or.inr ⟨rfl, rfl⟩⟩
    | some call =>
      rw [noSpawn ticket call found]
      refine ⟨⟨drained.child, drained.running, fun other call lookup => ?_⟩, Or.inl rfl⟩
      simp only [Supervision.finish, Assoc.lookup_erase_some] at lookup
      exact noSpawn other call lookup.2
  | die pid =>
    refine ⟨⟨drained.child, ?_, drained.calls⟩, Or.inr ⟨rfl, rfl⟩⟩
    simp [Supervision.step, Supervision.kill, drained.running]

/-- What a step says about stops. -/
theorem step_log (exclusive : world.Exclusive) (input : SupervisorStep) (ticket : Nat) :
    (.stopReturned ticket ∈ (world.step input).2 →
      (world.step input).1.inner.state = .stopped ∧ ticket < (world.step input).1.nextTicket) ∧
    (.stopBegan ticket ∈ (world.step input).2 →
      (∃ exitCode, input = .stop exitCode) ∧ ticket = world.nextTicket) ∧
    world.nextTicket ≤ (world.step input).1.nextTicket := by
  cases input with
  | start =>
    simp only [Supervision.step, Supervision.start]
    split_ifs <;> simp [Supervision.suspend]
  | poll now exitCode =>
    simp only [Supervision.step, Supervision.poll]
    cases world.inner.child <;> dsimp only <;> split_ifs <;> simp [Supervision.suspend]
  | noteEmbeddedServerAlive alive => simp [Supervision.step]
  | stop exitCode =>
    simp only [Supervision.step, Supervision.stop]
    cases world.inner.child with
    | some pid => simp [Supervision.suspend, Supervision.kill]
    | none =>
      simp [Inner.finishStop]
      exact fun same => same.le
  | snapshot now => simp [Supervision.step]
  | spawned id failure =>
    simp only [Supervision.step, Supervision.spawned]
    cases world.calls.lookup id with
    | none => simp
    | some call => cases call <;> cases failure <;> simp
  | resume id now =>
    simp only [Supervision.step, Supervision.resume]
    cases found : world.calls.lookup id with
    | none => simp
    | some call =>
      cases call with
      | stopping =>
        have old := exclusive.issued id _ found
        simp only [Supervision.finish, Inner.finishStop, List.mem_singleton,
          SupervisorLog.stopReturned.injEq]
        simp
        rintro rfl
        exact old
      | spawn | commit | reaped => simp [Supervision.finish]
  | die pid => simp [Supervision.step, Supervision.kill]

-- A stop after which nothing was started has drained the supervisor, and is either done or still
-- between its critical sections.
structure Settled (log : List SupervisorLog) (world : Supervision) : Prop where
  quiet : ∀ ticket, Quiet log ticket → world.Drained ∧ (world.inner.state = .stopped ∨
    world.calls.lookup ticket = some .stopping ∧ .stopReturned ticket ∉ log)
  issued : ∀ ticket, .stopReturned ticket ∈ log → ticket < world.nextTicket

theorem Settled.undisturbed {log : List SupervisorLog} (settled : world.Settled log)
    (exclusive : world.Exclusive) (input : SupervisorStep) (alone : world.StopsAlone log input)
    {ticket : Nat} (quiet : Quiet log ticket) (silent : .startCalled ∉ (world.step input).2) :
    (world.step input).1.Drained ∧ ((world.step input).1.inner.state = .stopped ∨
      (world.step input).1.calls.lookup ticket = some .stopping ∧
        .stopReturned ticket ∉ log ++ (world.step input).2) := by
  obtain ⟨drained, progress⟩ := settled.quiet ticket quiet
  have noStart : input ≠ .start := by
    rintro rfl
    apply silent
    simp only [Supervision.step, Supervision.start]
    split_ifs <;> simp
  have noRespawn (now : Nat) (exitCode : Option Int) (polls : input = .poll now exitCode) :
      world.inner.respawns now = false := by
    by_contra respawns
    rw [Bool.not_eq_false] at respawns
    obtain stopped | ⟨pending, -⟩ := progress
    · simp [Inner.respawns, stopped] at respawns
    · subst polls
      have free := alone respawns
      simp [stopUnderWay_of_lookup pending] at free
  obtain ⟨after, stopped | ⟨state, calls⟩⟩ := drained.step input noStart noRespawn
  · exact ⟨after, Or.inl stopped⟩
  · refine ⟨after, ?_⟩
    rw [state, calls]
    obtain stopped | ⟨pending, absent⟩ := progress
    · exact Or.inl stopped
    · by_cases returned : .stopReturned ticket ∈ (world.step input).2
      · exact Or.inl (state ▸ ((step_log exclusive input ticket).1 returned).1)
      · exact Or.inr ⟨pending, by simp [absent, returned]⟩

theorem Settled.step {log : List SupervisorLog} (settled : world.Settled log)
    (exclusive : world.Exclusive) (housed : world.Housed) (input : SupervisorStep)
    (alone : world.StopsAlone log input) :
    (world.step input).1.Settled (log ++ (world.step input).2) := by
  refine ⟨fun ticket quiet => ?_, fun ticket returned => ?_⟩
  · obtain ⟨quiet, silent⟩ | began := quiet_append quiet
    · exact settled.undisturbed exclusive input alone quiet silent
    · obtain ⟨⟨exitCode, rfl⟩, rfl⟩ := (step_log exclusive input ticket).2.1 began
      refine ⟨drained_stop housed alone exitCode, ?_⟩
      simp only [Supervision.step, Supervision.stop]
      cases child : world.inner.child with
      | none => exact Or.inl rfl
      | some pid =>
        refine Or.inr ⟨AList.lookup_insert _, ?_⟩
        have fresh : .stopReturned world.nextTicket ∉ log :=
          fun returned => absurd (settled.issued _ returned) (lt_irrefl _)
        simp [fresh]
  · obtain before | now := List.mem_append.mp returned
    · exact lt_of_lt_of_le (settled.issued ticket before) (step_log exclusive input ticket).2.2
    · exact ((step_log exclusive input ticket).1 now).2

structure Halted (world : Supervision) : Prop where
  state : world.inner.state = .stopped
  child : world.inner.child = none
  running : world.running = []

/-- In every interleaving whose stops find nothing else under way, a stop that has returned, with no
start called since it began, is final. -/
theorem run_stop_final (budget : RestartBudget) (steps : List SupervisorStep)
    (alone : Runs.Along step StopsAlone [] (new budget) steps) (ticket : Nat)
    (quiet : Quiet (Runs.run step (new budget) steps).2 ticket)
    (returned : .stopReturned ticket ∈ (Runs.run step (new budget) steps).2) :
    (Runs.run step (new budget) steps).1.Halted := by
  have kept := Runs.run_invariant step StopsAlone
    (fun log world => (world.Exclusive ∧ world.Housed) ∧ world.Settled log)
    (fun log world input held alone => ⟨⟨held.1.1.step input, held.1.2.step held.1.1 input⟩,
      held.2.step held.1.1 held.1.2 input alone⟩)
    [] (new budget) steps ⟨⟨exclusive_new budget, by simp [Housed, new]⟩, ?_⟩ alone
  · rw [List.nil_append] at kept
    obtain ⟨drained, stopped | ⟨-, pending⟩⟩ := kept.2.quiet ticket quiet
    · exact ⟨stopped, drained.child, drained.running⟩
    · exact absurd returned pending
  · refine ⟨?_, by simp⟩
    rintro other ⟨before, after, split, -⟩
    simp at split

/-- A child is started, then stopped, and a later poll finds nothing to do. -/
theorem run_stop_final_of_healthy :
    (Runs.run step (new (.new 3 60000)) [.start, .spawned 0 none, .resume 0 1, .stop (some 0),
      .resume 1 2, .poll 3 none]).1.Halted :=
  run_stop_final (.new 3 60000) _ (by decide) 1
    ⟨[.startCalled, .event (.spawned 0)],
      [.event (.terminal 0 (some 0)), .stopReturned 1], by decide, by decide⟩ (by decide)

/-- The stop comes while the spawn of the start is in flight. -/
theorem run_stop_undone :
    ¬ (Quiet (Runs.run step (new (.new 3 60000)) [.start, .stop none, .spawned 0 none,
        .resume 0 2]).2 1 →
      .stopReturned 1 ∈ (Runs.run step (new (.new 3 60000)) [.start, .stop none, .spawned 0 none,
        .resume 0 2]).2 →
      (Runs.run step (new (.new 3 60000)) [.start, .stop none, .spawned 0 none,
        .resume 0 2]).1.Halted) := by
  intro final
  have halted := final ⟨[.startCalled], [.stopReturned 1, .event (.spawned 0)], by decide,
    by decide⟩ (by decide)
  have healthy : (Runs.run step (new (.new 3 60000)) [.start, .stop none, .spawned 0 none,
      .resume 0 2]).1.inner.state = .healthy := by decide
  exact absurd (healthy.symm.trans halted.state) (by decide)

end Supervision

end BetterParsec

