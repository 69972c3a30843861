import BetterParsec.App.Truthfulness

set_option autoImplicit false
set_option linter.all false

/-!
# One child at a time, and how often it is restarted

No commit replaces a tracked child, and every child that was tracked and is no
longer has one terminal event. The budget is charged when a restart is scheduled
and not when it is made, so that a window of `poll` times can hold one respawn
more than the budget allows, and more where a poll charges the budget late.
-/

namespace BetterParsec

def SupervisorLog.endsChild (pid : Nat) : SupervisorLog → Bool
  | .event (.terminal other _) => other = pid
  | .event (.spawned _) | .event .restartBudgetExhausted | .startCalled | .stopBegan _
  | .stopReturned _ => false

def SupervisorLog.startsChild : SupervisorLog → Bool
  | .event (.spawned _) => true
  | .event (.terminal _ _) | .event .restartBudgetExhausted | .startCalled | .stopBegan _
  | .stopReturned _ => false

namespace Inner

variable (inner : Inner)

theorem scheduleRestart_events (now : Nat) :
    ∀ event ∈ (inner.scheduleRestart now).2, event = .restartBudgetExhausted := by
  unfold scheduleRestart
  split <;> simp

theorem spawnFailed_events (error : String) (now : Nat) :
    ∀ event ∈ (inner.spawnFailed error now).2, event = .restartBudgetExhausted := by
  simp only [spawnFailed]
  split_ifs
  · exact scheduleRestart_events _ now
  · simp

theorem spawnFailed_child (error : String) (now : Nat) :
    (inner.spawnFailed error now).1.child = inner.child := by
  simp only [spawnFailed]
  split_ifs <;> simp

end Inner

namespace Supervision

-- A child that was spawned and that no poll or stop has taken out of the supervisor.
def Unreaped (world : Supervision) (pid : Nat) : Prop :=
  world.inner.child = some pid ∨
    ∃ ticket pollAt, world.calls.lookup ticket = some (.commit (.ok pid) pollAt)

variable {world : Supervision}

theorem Exclusive.commit_vacant (exclusive : world.Exclusive) {ticket : Nat}
    {result : Except String Nat} {pollAt : Option Nat}
    (found : world.calls.lookup ticket = some (.commit result pollAt)) :
    world.inner.child = none :=
  exclusive.vacant (exclusive.flagged ticket _ found rfl)

theorem Exclusive.unreaped_unique (exclusive : world.Exclusive) {pid other : Nat}
    (first : world.Unreaped pid) (second : world.Unreaped other) : pid = other := by
  obtain tracked | ⟨ticket, pollAt, found⟩ := first
  · obtain tracked' | ⟨ticket', pollAt', found'⟩ := second
    · exact Option.some.inj (tracked.symm.trans tracked')
    · simp [exclusive.commit_vacant found'] at tracked
  · obtain tracked' | ⟨ticket', pollAt', found'⟩ := second
    · simp [exclusive.commit_vacant found] at tracked'
    · obtain rfl := exclusive.alone ticket ticket' _ _ found rfl found' rfl
      rw [found] at found'
      simp only [Option.some.injEq, PendingCall.commit.injEq, Except.ok.injEq] at found'
      exact found'.1

def commits (pid : Nat) (log : List SupervisorLog) : Nat := log.count (.event (.spawned pid))

def terminals (pid : Nat) (log : List SupervisorLog) : Nat :=
  log.countP (SupervisorLog.endsChild pid)

theorem commits_append (pid : Nat) (first second : List SupervisorLog) :
    commits pid (first ++ second) = commits pid first + commits pid second :=
  List.count_append

theorem terminals_append (pid : Nat) (first second : List SupervisorLog) :
    terminals pid (first ++ second) = terminals pid first + terminals pid second :=
  List.countP_append

theorem commits_of_none {more : List SupervisorLog}
    (none : ∀ entry ∈ more, entry.startsChild = false) (pid : Nat) : commits pid more = 0 := by
  rw [commits, List.count_eq_zero]
  intro member
  simpa [SupervisorLog.startsChild] using none _ member

-- Every committed child is tracked until its one terminal event.
structure Mourned (log : List SupervisorLog) (world : Supervision) : Prop where
  exclusive : world.Exclusive
  paired : ∀ pid, terminals pid log + (if world.inner.child = some pid then 1 else 0) =
    commits pid log
  once : ∀ pid, commits pid log ≤ 1
  issued : ∀ pid, world.nextPid ≤ pid → commits pid log = 0
  awaited : ∀ ticket pid pollAt, world.calls.lookup ticket = some (.commit (.ok pid) pollAt) →
    pid < world.nextPid ∧ commits pid log = 0

variable {log : List SupervisorLog}

theorem mourned_new (budget : RestartBudget) : Mourned [] (new budget) := by
  refine ⟨exclusive_new budget, ?_, ?_, ?_, ?_⟩ <;>
    simp [new, Inner.new, terminals, commits]

theorem lookup_of_suspend {inner : Inner} {call : PendingCall} {ticket : Nat} {found : PendingCall}
    (other : call ≠ found) (lookup : (world.suspend inner call).calls.lookup ticket = some found) :
    world.calls.lookup ticket = some found := by
  simp only [suspend, Assoc.lookup_insert_some] at lookup
  obtain ⟨-, same⟩ | ⟨-, lookup⟩ := lookup
  · exact absurd same other
  · exact lookup

theorem lookup_of_finish {inner : Inner} {ended ticket : Nat} {found : PendingCall}
    (lookup : (world.finish ended inner).calls.lookup ticket = some found) :
    world.calls.lookup ticket = some found := by
  simp only [finish, Assoc.lookup_erase_some] at lookup
  exact lookup.2

/-- A step that neither commits nor reaps a child. -/
theorem Mourned.quiet (mourned : Mourned log world) {next : Supervision}
    {more : List SupervisorLog} (exclusive : next.Exclusive)
    (silent : ∀ entry ∈ more, entry.startsChild = false ∧ ∀ pid, entry.endsChild pid = false)
    (child : next.inner.child = world.inner.child) (nextPid : next.nextPid = world.nextPid)
    (calls : ∀ ticket pid pollAt, next.calls.lookup ticket = some (.commit (.ok pid) pollAt) →
      world.calls.lookup ticket = some (.commit (.ok pid) pollAt)) :
    Mourned (log ++ more) next := by
  have started (pid : Nat) : commits pid (log ++ more) = commits pid log := by
    rw [commits_append, commits_of_none (fun entry member => (silent entry member).1), Nat.add_zero]
  have ended (pid : Nat) : terminals pid (log ++ more) = terminals pid log := by
    rw [terminals_append, Nat.add_eq_left, terminals, List.countP_eq_zero]
    intro entry member
    simp [(silent entry member).2 pid]
  refine ⟨exclusive, fun pid => ?_, fun pid => ?_, fun pid later => ?_,
    fun ticket pid pollAt found => ?_⟩
  · rw [started, ended, child]
    exact mourned.paired pid
  · rw [started]
    exact mourned.once pid
  · rw [started]
    exact mourned.issued pid (nextPid ▸ later)
  · rw [started, nextPid]
    exact mourned.awaited ticket pid pollAt (calls ticket pid pollAt found)

/-- The tracked child is taken out with its terminal event. -/
theorem Mourned.reap (mourned : Mourned log world) {next : Supervision} {pid : Nat}
    {exitCode : Option Int} (exclusive : next.Exclusive)
    (tracked : world.inner.child = some pid) (child : next.inner.child = none)
    (nextPid : next.nextPid = world.nextPid)
    (calls : ∀ ticket pid pollAt, next.calls.lookup ticket = some (.commit (.ok pid) pollAt) →
      world.calls.lookup ticket = some (.commit (.ok pid) pollAt)) :
    Mourned (log ++ [SupervisorLog.event (.terminal pid exitCode)]) next := by
  have started (other : Nat) :
      commits other (log ++ [SupervisorLog.event (.terminal pid exitCode)]) =
        commits other log := by
    simp [commits]
  refine ⟨exclusive, fun other => ?_, fun other => ?_, fun other later => ?_,
    fun ticket other pollAt found => ?_⟩
  · rw [started, terminals_append, ← mourned.paired other, child, tracked]
    by_cases same : pid = other <;> simp [terminals, SupervisorLog.endsChild, same]
  · rw [started]
    exact mourned.once other
  · rw [started]
    exact mourned.issued other (nextPid ▸ later)
  · rw [started, nextPid]
    exact mourned.awaited ticket other pollAt (calls ticket other pollAt found)

theorem Mourned.install (mourned : Mourned log world) {ticket pid now : Nat} {pollAt : Option Nat}
    (found : world.calls.lookup ticket = some (.commit (.ok pid) pollAt))
    (exclusive : (world.finish ticket (world.inner.installChild pid now)).Exclusive) :
    Mourned (log ++ [SupervisorLog.event (.spawned pid)])
      (world.finish ticket (world.inner.installChild pid now)) := by
  obtain ⟨small, fresh⟩ := mourned.awaited ticket pid pollAt found
  have vacant := mourned.exclusive.commit_vacant found
  have started (other : Nat) : commits other (log ++ [SupervisorLog.event (.spawned pid)]) =
      commits other log + if pid = other then 1 else 0 := by
    by_cases same : pid = other <;> simp [commits, same]
  refine ⟨exclusive, fun other => ?_, fun other => ?_, fun other later => ?_,
    fun ticket' other pollAt' found' => ?_⟩
  · have paired := mourned.paired other
    rw [vacant] at paired
    rw [started, ← paired]
    by_cases same : pid = other <;>
      simp [same, finish, Inner.installChild, terminals, SupervisorLog.endsChild]
  · rw [started]
    split_ifs with same
    · simp [← same, fresh]
    · exact mourned.once other
  · rw [started, if_neg (by simp only [finish] at later; omega)]
    exact mourned.issued other later
  · -- Another commit would be another spawn in flight.
    simp only [finish, Assoc.lookup_erase_some] at found'
    have same := mourned.exclusive.alone ticket' ticket _ _ found'.2 rfl found rfl
    exact absurd same found'.1

theorem Mourned.spawned (mourned : Mourned log world) (ticket : Nat) (failure : Option String) :
    Mourned log (world.spawned ticket failure) := by
  have exclusive := mourned.exclusive.spawned ticket failure
  unfold Supervision.spawned at exclusive ⊢
  cases found : world.calls.lookup ticket with
  | none =>
    simp only [found] at exclusive ⊢
    exact mourned
  | some call =>
    simp only [found] at exclusive ⊢
    cases call with
    | spawn pollAt =>
      cases failure with
      | some error =>
        refine ⟨exclusive, mourned.paired, mourned.once, mourned.issued,
          fun other pid pollAt lookup => mourned.awaited other pid pollAt ?_⟩
        simp only [Assoc.lookup_insert_some] at lookup
        obtain ⟨-, same⟩ | ⟨-, lookup⟩ := lookup
        · simp at same
        · exact lookup
      | none =>
        refine ⟨exclusive, mourned.paired, mourned.once,
          fun pid later => mourned.issued pid (Nat.le_of_succ_le later),
          fun other pid pollAt lookup => ?_⟩
        simp only [Assoc.lookup_insert_some] at lookup
        obtain ⟨-, same⟩ | ⟨-, lookup⟩ := lookup
        · simp only [PendingCall.commit.injEq, Except.ok.injEq] at same
          rw [← same.1]
          exact ⟨Nat.lt_succ_self _, mourned.issued _ (Nat.le_refl _)⟩
        · have earlier := mourned.awaited other pid pollAt lookup
          exact ⟨Nat.lt_succ_of_lt earlier.1, earlier.2⟩
    | commit | reaped | stopping => exact mourned

theorem silent_exhausted {events : List SupervisorEvent}
    (exhausted : ∀ event ∈ events, event = .restartBudgetExhausted) :
    ∀ entry ∈ events.map SupervisorLog.event,
      entry.startsChild = false ∧ ∀ pid, entry.endsChild pid = false := by
  intro entry member
  obtain ⟨event, listed, rfl⟩ := List.mem_map.mp member
  rw [exhausted event listed]
  exact ⟨rfl, fun _ => rfl⟩

theorem Mourned.poll (mourned : Mourned log world) (now : Nat) (exitCode : Option Int) :
    Mourned (log ++ (world.poll now exitCode).2) (world.poll now exitCode).1 := by
  have exclusive := mourned.exclusive.poll now exitCode
  unfold Supervision.poll at exclusive ⊢
  cases child : world.inner.child with
  | some pid =>
    simp only [child] at exclusive ⊢
    split_ifs at exclusive ⊢ with alive
    · exact mourned.quiet exclusive (by simp) rfl rfl (fun _ _ _ => id)
    · exact mourned.reap exclusive child rfl rfl
        (fun ticket other pollAt => lookup_of_suspend (by simp))
  | none =>
    simp only [child] at exclusive ⊢
    split_ifs at exclusive ⊢
    · exact mourned.quiet exclusive (by simp) rfl rfl
        (fun ticket other pollAt => lookup_of_suspend (by simp))
    · simpa using mourned

theorem Mourned.stop (mourned : Mourned log world) (exitCode : Option Int) :
    Mourned (log ++ (world.stop exitCode).2) (world.stop exitCode).1 := by
  have exclusive := mourned.exclusive.stop exitCode
  unfold Supervision.stop at exclusive ⊢
  cases child : world.inner.child with
  | some pid =>
    simp only [child] at exclusive ⊢
    have began : Mourned (log ++ [SupervisorLog.stopBegan world.nextTicket]) world :=
      mourned.quiet mourned.exclusive (by simp [SupervisorLog.startsChild, SupervisorLog.endsChild])
        rfl rfl (fun _ _ _ => id)
    rw [show log ++ [SupervisorLog.stopBegan world.nextTicket, .event (.terminal pid exitCode)] =
      log ++ [SupervisorLog.stopBegan world.nextTicket] ++
        [SupervisorLog.event (.terminal pid exitCode)] by simp]
    exact began.reap exclusive child rfl rfl
      (fun ticket other pollAt => lookup_of_suspend (by simp))
  | none =>
    simp only [child] at exclusive ⊢
    exact mourned.quiet exclusive (by simp [SupervisorLog.startsChild, SupervisorLog.endsChild])
      rfl rfl (fun _ _ _ => id)

theorem Mourned.resume (mourned : Mourned log world) (ticket now : Nat) :
    Mourned (log ++ (world.resume ticket now).2) (world.resume ticket now).1 := by
  have exclusive := mourned.exclusive.resume ticket now
  unfold Supervision.resume at exclusive ⊢
  cases found : world.calls.lookup ticket with
  | none => simpa using mourned
  | some call =>
    simp only [found] at exclusive ⊢
    cases call with
    | spawn => simpa using mourned
    | commit result pollAt =>
      cases result with
      | ok pid => exact mourned.install found exclusive
      | error error =>
        refine mourned.quiet exclusive ?_ ?_ rfl (fun _ _ _ => lookup_of_finish)
        · exact silent_exhausted (world.inner.spawnFailed_events error _)
        · exact world.inner.spawnFailed_child error _
    | reaped pollAt =>
      refine mourned.quiet exclusive ?_ (by simp [finish]) rfl (fun _ _ _ => lookup_of_finish)
      exact silent_exhausted (world.inner.scheduleRestart_events pollAt)
    | stopping =>
      exact mourned.quiet exclusive (by simp [SupervisorLog.startsChild, SupervisorLog.endsChild])
        rfl rfl (fun _ _ _ => lookup_of_finish)

theorem Mourned.step (mourned : Mourned log world) (input : SupervisorStep) :
    Mourned (log ++ (world.step input).2) (world.step input).1 := by
  have exclusive := mourned.exclusive.step input
  cases input with
  | start =>
    simp only [Supervision.step, Supervision.start] at exclusive ⊢
    split_ifs at exclusive ⊢
    · exact mourned.quiet exclusive (by simp [SupervisorLog.startsChild, SupervisorLog.endsChild])
        rfl rfl (fun _ _ _ => id)
    · exact mourned.quiet exclusive (by simp [SupervisorLog.startsChild, SupervisorLog.endsChild])
        rfl rfl (fun ticket other pollAt => lookup_of_suspend (by simp))
  | poll now exitCode => exact mourned.poll now exitCode
  | noteEmbeddedServerAlive alive =>
    exact mourned.quiet exclusive (by simp [Supervision.step]) (by simp [Supervision.step]) rfl
      (fun _ _ _ => id)
  | stop exitCode => exact mourned.stop exitCode
  | snapshot now =>
    exact mourned.quiet exclusive (by simp [Supervision.step]) rfl rfl (fun _ _ _ => id)
  | spawned ticket failure => simpa [Supervision.step] using mourned.spawned ticket failure
  | resume ticket now => exact mourned.resume ticket now
  | die pid => exact mourned.quiet exclusive (by simp [Supervision.step]) rfl rfl (fun _ _ _ => id)

theorem Mourned.terminals_eq (mourned : Mourned log world) (pid : Nat) :
    terminals pid log =
      if .event (.spawned pid) ∈ log ∧ world.inner.child ≠ some pid then 1 else 0 := by
  have paired := mourned.paired pid
  have once := mourned.once pid
  have member : .event (.spawned pid) ∈ log ↔ 0 < commits pid log := List.count_pos_iff.symm
  by_cases tracked : world.inner.child = some pid
  · simp only [tracked, if_true, ne_eq, not_true_eq_false, and_false, if_false] at paired ⊢
    omega
  · simp only [tracked, if_false, ne_eq, not_false_eq_true, and_true, member] at paired ⊢
    split_ifs <;> omega

end Supervision

-- What the restart budget sees of a step: a respawn that `poll` begins, and a restart charged.
inductive RestartAudit where
  | respawned (now : Nat)
  | charged (time : Nat)
  deriving DecidableEq

namespace Inner

def charge (inner : Inner) (time : Nat) : List RestartAudit :=
  if inner.budget.exhausted time then [] else [.charged time]

def armed (inner : Inner) : Nat :=
  if inner.state = .restarting ∧ inner.spawning = false then 1 else 0

-- How a step moves the budget when the clock stands at `latest`.
inductive Spends (latest : Nat) (inner : Inner) : Inner → List RestartAudit → Prop where
  | kept {next : Inner} (consecutive : Nat)
      (budget : next.budget = { inner.budget with consecutive := consecutive })
      (armed : next.armed ≤ inner.armed) : Spends latest inner next []
  | pruned {next : Inner} (time : Nat) (past : time ≤ latest)
      (budget : next.budget = inner.budget.prune time) (armed : next.armed ≤ inner.armed) :
      Spends latest inner next []
  | respawned {next : Inner} (budget : next.budget = inner.budget) (before : inner.armed = 1)
      (after : next.armed = 0) : Spends latest inner next [.respawned latest]
  | charged {next : Inner} (time : Nat) (past : time ≤ latest)
      (room : inner.budget.exhausted time = false)
      (budget : next.budget = (inner.budget.recordAndCheck time).1) :
      Spends latest inner next [.charged time]

theorem armed_le (inner : Inner) : inner.armed ≤ 1 := by
  unfold armed
  split_ifs <;> omega

theorem armed_eq_zero {inner : Inner} (idle : inner.state ≠ .restarting) : inner.armed = 0 := by
  simp [armed, idle]

theorem deriveUpState_ne (inner : Inner) : inner.deriveUpState ≠ .restarting := by
  unfold deriveUpState
  split_ifs <;> simp

theorem spends_scheduleRestart (inner noted : Inner) (same : noted.budget = inner.budget)
    {time latest : Nat} (past : time ≤ latest) :
    inner.Spends latest (noted.scheduleRestart time).1 (inner.charge time) := by
  cases full : inner.budget.exhausted time with
  | true =>
    simp only [charge, full, if_true]
    refine .pruned time past ?_ ?_
    · simp [scheduleRestart, RestartBudget.recordAndCheck, same, full]
    · rw [armed_eq_zero (by simp [same, full])]
      exact Nat.zero_le _
  | false =>
    simp only [charge, full, Bool.false_eq_true, if_false]
    refine .charged time past full ?_
    simp [scheduleRestart, RestartBudget.recordAndCheck, same, full]

end Inner

namespace PendingCall

def reading : PendingCall → Option Nat
  | spawn pollAt | commit _ pollAt => pollAt
  | reaped now => some now
  | stopping => none

end PendingCall

namespace SupervisorStep

def reading : SupervisorStep → Option Nat
  | poll now _ | snapshot now | resume _ now => some now
  | start | noteEmbeddedServerAlive _ | stop _ | spawned _ _ | die _ => none

end SupervisorStep

namespace Supervision

def audit (world : Supervision) : SupervisorStep → List RestartAudit
  | .poll now _ => if world.inner.respawns now then [.respawned now] else []
  | .resume ticket now =>
      match world.calls.lookup ticket with
      | some (.commit (.error _) pollAt) =>
          if world.inner.state = .restarting then world.inner.charge (pollAt.getD now) else []
      | some (.reaped pollAt) => world.inner.charge pollAt
      | some (.commit (.ok _) _) | some (.spawn _) | some .stopping | none => []
  | .start | .noteEmbeddedServerAlive _ | .stop _ | .snapshot _ | .spawned _ _ | .die _ => []

def auditedStep (world : Supervision) (input : SupervisorStep) : Supervision × List RestartAudit :=
  ((world.step input).1, world.audit input)

-- No call under way works with a time after `latest`.
def Due (latest : Nat) (world : Supervision) : Prop :=
  ∀ ticket call, world.calls.lookup ticket = some call → ∀ time ∈ call.reading, time ≤ latest

variable {world : Supervision} {latest : Nat}

theorem spends_poll (now : Nat) (exitCode : Option Int) :
    world.inner.Spends now (world.poll now exitCode).1.inner
      (if world.inner.respawns now then [.respawned now] else []) := by
  unfold Supervision.poll
  cases child : world.inner.child with
  | some pid =>
    have idle : world.inner.respawns now = false := by simp [Inner.respawns, child]
    simp only [idle, Bool.false_eq_true, if_false]
    split_ifs
    · have settled : (world.inner.pollRunning now).armed = 0 :=
        Inner.armed_eq_zero world.inner.deriveUpState_ne
      refine .kept (world.inner.pollRunning now).budget.consecutive ?_ (by simp [settled])
      simp only [Inner.pollRunning]
      split_ifs <;> rfl
    · exact .kept _ rfl (Nat.le_refl _)
  | none =>
    dsimp only
    split_ifs with respawns
    · simp only [Inner.respawns, Bool.and_eq_true, Bool.not_eq_true', decide_eq_true_eq] at respawns
      refine .respawned rfl ?_ ?_
      · simp [Inner.armed, respawns.1.1.2, respawns.1.2]
      · simp [Inner.armed, suspend, Inner.beginRespawn]
    · exact .kept _ rfl (Nat.le_refl _)

theorem spends_resume (due : world.Due latest) (ticket : Nat) {now : Nat} (past : now ≤ latest) :
    world.inner.Spends latest (world.resume ticket now).1.inner
      (world.audit (.resume ticket now)) := by
  simp only [Supervision.resume, audit]
  cases found : world.calls.lookup ticket with
  | none => exact .kept _ rfl (Nat.le_refl _)
  | some call =>
    cases call with
    | spawn => exact .kept _ rfl (Nat.le_refl _)
    | commit result pollAt =>
      have time : pollAt.getD now ≤ latest := by
        cases pollAt with
        | none => exact past
        | some time => exact due ticket _ found time rfl
      cases result with
      | ok pid =>
        refine .kept _ rfl ?_
        rw [Inner.armed_eq_zero (by exact world.inner.deriveUpState_ne)]
        exact Nat.zero_le _
      | error error =>
        simp only [Inner.commitSpawnResult, Inner.spawnFailed]
        split_ifs
        · exact world.inner.spends_scheduleRestart
            { world.inner with spawning := false, lastError := some error } rfl time
        · refine .kept _ rfl ?_
          rw [Inner.armed_eq_zero (by simp [finish])]
          exact Nat.zero_le _
    | reaped pollAt =>
      exact world.inner.spends_scheduleRestart _ rfl (due ticket _ found pollAt rfl)
    | stopping =>
      refine .kept _ rfl ?_
      rw [Inner.armed_eq_zero (by simp [finish, Inner.finishStop])]
      exact Nat.zero_le _

theorem spends_step (due : world.Due latest) (input : SupervisorStep)
    (clock : ∀ now ∈ input.reading, now = latest) :
    world.inner.Spends latest (world.step input).1.inner (world.audit input) := by
  cases input with
  | start =>
    simp only [Supervision.step, Supervision.start, audit]
    split_ifs
    · exact .kept _ rfl (Nat.le_refl _)
    · refine .kept _ rfl ?_
      rw [Inner.armed_eq_zero (by simp [suspend, Inner.beginStart])]
      exact Nat.zero_le _
  | poll now exitCode =>
    obtain rfl := clock now rfl
    exact spends_poll now exitCode
  | noteEmbeddedServerAlive alive =>
    simp only [Supervision.step, Inner.noteEmbeddedServerAlive, audit]
    split_ifs
    · refine .kept _ rfl ?_
      rw [Inner.armed_eq_zero (Inner.deriveUpState_ne _)]
      exact Nat.zero_le _
    · exact .kept _ rfl (Nat.le_refl _)
  | stop exitCode =>
    simp only [Supervision.step, Supervision.stop, audit]
    split
    · exact .kept _ rfl (Nat.le_refl _)
    · refine .kept _ rfl ?_
      rw [Inner.armed_eq_zero (by simp [Inner.finishStop])]
      exact Nat.zero_le _
  | snapshot now => exact .pruned now (clock now rfl).le rfl (Nat.le_refl _)
  | spawned ticket failure =>
    simp only [Supervision.step, audit, spawned_inner]
    exact .kept _ rfl (Nat.le_refl _)
  | resume ticket now => exact spends_resume due ticket (clock now rfl).le
  | die pid => exact .kept _ rfl (Nat.le_refl _)

theorem Due.later (due : world.Due latest) {now : Nat} (past : latest ≤ now) : world.Due now :=
  fun ticket call found time held => (due ticket call found time held).trans past

theorem Due.suspend (due : world.Due latest) (inner : Inner) (call : PendingCall)
    (past : ∀ time ∈ call.reading, time ≤ latest) : (world.suspend inner call).Due latest := by
  intro ticket other found
  simp only [Supervision.suspend, Assoc.lookup_insert_some] at found
  obtain ⟨-, rfl⟩ | ⟨-, found⟩ := found
  · exact past
  · exact due ticket other found

theorem Due.finish (due : world.Due latest) (ticket : Nat) (inner : Inner) :
    (world.finish ticket inner).Due latest :=
  fun other call found => due other call (lookup_of_finish found)

theorem Due.spawned (due : world.Due latest) (ticket : Nat) (failure : Option String) :
    (world.spawned ticket failure).Due latest := by
  unfold Supervision.spawned
  split
  next pollAt found =>
    have replaced (result : Except String Nat) (other : Nat) (call : PendingCall)
        (lookup : (world.calls.insert ticket (.commit result pollAt)).lookup other = some call) :
        ∀ time ∈ call.reading, time ≤ latest := by
      rw [Assoc.lookup_insert_some] at lookup
      obtain ⟨-, rfl⟩ | ⟨-, lookup⟩ := lookup
      · exact due ticket (.spawn pollAt) found
      · exact due other call lookup
    split
    · exact fun other call lookup => replaced _ other call lookup
    · exact fun other call lookup => replaced _ other call lookup
  all_goals exact due

theorem Due.step (due : world.Due latest) (input : SupervisorStep)
    (past : ∀ now ∈ input.reading, now ≤ latest) : (world.step input).1.Due latest := by
  cases input with
  | start =>
    simp only [Supervision.step, Supervision.start]
    split_ifs
    · exact due
    · exact due.suspend _ _ (by simp [PendingCall.reading])
  | poll now exitCode =>
    have now_past : now ≤ latest := past now rfl
    simp only [Supervision.step, Supervision.poll]
    split
    · split_ifs
      · exact due
      · exact due.suspend _ _ (by simpa [PendingCall.reading] using now_past)
    · split_ifs
      · exact due.suspend _ _ (by simpa [PendingCall.reading] using now_past)
      · exact due
  | noteEmbeddedServerAlive alive => exact due
  | stop exitCode =>
    simp only [Supervision.step, Supervision.stop]
    split
    next pid _ =>
      have killed : (world.kill pid).Due latest := due
      exact killed.suspend _ _ (by simp [PendingCall.reading])
    · exact due
  | snapshot now => exact due
  | spawned ticket failure =>
    exact due.spawned ticket failure
  | resume ticket now =>
    simp only [Supervision.step, Supervision.resume]
    split
    · exact due.finish _ _
    · exact due.finish _ _
    · exact due.finish _ _
    · exact due
    · exact due
  | die pid => exact due

end Supervision

namespace RestartAudit

variable (first window : Nat)

def respawnsIn : RestartAudit → Bool
  | respawned now => first ≤ now ∧ now < first + window
  | charged _ => false

def chargedIn : RestartAudit → Bool
  | respawned _ => false
  | charged time => first ≤ time ∧ time < first + window

def opens : RestartAudit → Bool
  | respawned now => first ≤ now
  | charged _ => false

def chargedBefore : RestartAudit → Bool
  | respawned _ => false
  | charged time => time < first

end RestartAudit

def respawnsIn (first window : Nat) (audit : List RestartAudit) : Nat :=
  audit.countP (RestartAudit.respawnsIn first window)

def chargesIn (first window : Nat) (audit : List RestartAudit) : Nat :=
  audit.countP (RestartAudit.chargedIn first window)

-- Restarts charged with a time before `first`, after a respawn at `first` or later: the polls
-- that found their child dead in time and were overtaken before they charged the budget.
def overtaken (first : Nat) (audit : List RestartAudit) : Nat :=
  (audit.dropWhile (fun entry => !entry.opens first)).countP (RestartAudit.chargedBefore first)

section Counting

variable (first window : Nat) (audit : List RestartAudit)

theorem respawnsIn_concat (entry : RestartAudit) : respawnsIn first window (audit ++ [entry]) =
    respawnsIn first window audit + if entry.respawnsIn first window then 1 else 0 := by
  simp [respawnsIn, List.countP_append, List.countP_singleton]

theorem chargesIn_concat (entry : RestartAudit) : chargesIn first window (audit ++ [entry]) =
    chargesIn first window audit + if entry.chargedIn first window then 1 else 0 := by
  simp [chargesIn, List.countP_append, List.countP_singleton]

theorem overtaken_le (entry : RestartAudit) :
    overtaken first audit ≤ overtaken first (audit ++ [entry]) := by
  simp only [overtaken, List.dropWhile_append]
  split_ifs with empty
  · rw [List.isEmpty_iff.mp empty]
    exact Nat.zero_le _
  · simp [List.countP_append]

theorem overtaken_charged {time : Nat} (before : time < first)
    (began : respawnsIn first window audit ≠ 0) :
    overtaken first (audit ++ [RestartAudit.charged time]) = overtaken first audit + 1 := by
  have reached : audit.dropWhile (fun entry => !entry.opens first) ≠ [] := by
    intro none
    rw [List.dropWhile_eq_nil_iff] at none
    apply began
    rw [respawnsIn, List.countP_eq_zero]
    intro entry member
    have early := none entry member
    cases entry with
    | charged => simp [RestartAudit.respawnsIn]
    | respawned now =>
      simp only [RestartAudit.opens, Bool.not_eq_true', decide_eq_false_iff_not] at early
      simp [RestartAudit.respawnsIn, early]
  simp only [overtaken, List.dropWhile_append]
  rw [if_neg (by simpa using reached), List.countP_append]
  simp [RestartAudit.chargedBefore, before]

end Counting

theorem countP_dropWhile {A : Type} (drop counts : A → Bool) (list : List A)
    (kept : ∀ item, counts item → drop item = false) :
    (list.dropWhile drop).countP counts = list.countP counts := by
  have none : (list.takeWhile drop).countP counts = 0 := by
    rw [List.countP_eq_zero]
    intro item member counted
    have dropped := List.mem_takeWhile_imp member
    simp [kept item counted] at dropped
  nth_rewrite 2 [← list.takeWhile_append_dropWhile (p := drop)]
  rw [List.countP_append, none, Nat.zero_add]

namespace RestartBudget

variable (first window : Nat)

-- The entries of the budget that lie in a window.
def entriesIn (budget : RestartBudget) : Nat :=
  budget.attempts.countP (fun time => first ≤ time ∧ time < first + window)

theorem entriesIn_le (budget : RestartBudget) :
    budget.entriesIn first window ≤ budget.attempts.length :=
  List.countP_le_length

theorem entriesIn_prune (budget : RestartBudget) (span : budget.window = window) {now : Nat}
    (within : now < first + window) :
    (budget.prune now).entriesIn first window = budget.entriesIn first window := by
  apply countP_dropWhile
  intro time counted
  simp only [decide_eq_true_eq] at counted
  simp only [span, decide_eq_false_iff_not]
  omega

theorem prune_length (budget : RestartBudget) (now : Nat) :
    (budget.prune now).attempts.length ≤ budget.attempts.length :=
  (List.dropWhile_sublist _).length_le

end RestartBudget

namespace Supervision

-- Each respawn in the window uses up an armed restart, and what arms one is charged. Once the
-- clock has left the window only the bound remains: late charges find the budget pruned.
structure Rationed (maxRestarts window first latest : Nat) (audit : List RestartAudit)
    (world : Supervision) : Prop where
  due : world.Due latest
  limit : world.inner.budget.maxRestarts = maxRestarts
  span : world.inner.budget.window = window
  filled : world.inner.budget.attempts.length ≤ maxRestarts
  kept : latest < first + window →
    chargesIn first window audit ≤ world.inner.budget.entriesIn first window
  spent : latest < first + window → respawnsIn first window audit + world.inner.armed ≤
    1 + chargesIn first window audit + overtaken first audit
  bound : respawnsIn first window audit ≤ maxRestarts + 1 + overtaken first audit

section Ration

variable {maxRestarts window first latest now : Nat} {audit : List RestartAudit}
  {world : Supervision} {next : Supervision}

theorem rationed_new (first : Nat) :
    Rationed maxRestarts window first 0 [] (new (.new maxRestarts window)) := by
  refine ⟨?_, rfl, rfl, Nat.zero_le _, fun _ => Nat.zero_le _, fun _ => ?_, Nat.zero_le _⟩
  · simp [Due, new]
  · simpa [respawnsIn, chargesIn] using (Inner.armed_le _).trans (Nat.le_add_right 1 _)

theorem Rationed.charges_le (rationed : Rationed maxRestarts window first latest audit world)
    (within : latest < first + window) : chargesIn first window audit ≤ maxRestarts :=
  (rationed.kept within).trans ((RestartBudget.entriesIn_le _ _ _).trans rationed.filled)

theorem Rationed.quiet (rationed : Rationed maxRestarts window first latest audit world)
    (after : latest ≤ now) (due : next.Due now)
    (limit : next.inner.budget.maxRestarts = world.inner.budget.maxRestarts)
    (span : next.inner.budget.window = world.inner.budget.window)
    (length : next.inner.budget.attempts.length ≤ world.inner.budget.attempts.length)
    (entries : now < first + window →
      next.inner.budget.entriesIn first window = world.inner.budget.entriesIn first window)
    (armed : next.inner.armed ≤ world.inner.armed) :
    Rationed maxRestarts window first now audit next := by
  refine ⟨due, limit.trans rationed.limit, span.trans rationed.span, length.trans rationed.filled,
    fun within => ?_, fun within => ?_, rationed.bound⟩
  · rw [entries within]
    exact rationed.kept (by omega)
  · exact (Nat.add_le_add_left armed _).trans (rationed.spent (by omega))

theorem Rationed.respawned (rationed : Rationed maxRestarts window first latest audit world)
    (after : latest ≤ now) (due : next.Due now) (budget : next.inner.budget = world.inner.budget)
    (before : world.inner.armed = 1) (settled : next.inner.armed = 0) :
    Rationed maxRestarts window first now (audit ++ [RestartAudit.respawned now]) next := by
  have charges : chargesIn first window (audit ++ [RestartAudit.respawned now]) =
      chargesIn first window audit := by
    simp [chargesIn_concat, RestartAudit.chargedIn]
  have late := overtaken_le first audit (.respawned now)
  refine ⟨due, by rw [budget, rationed.limit], by rw [budget, rationed.span],
    by rw [budget]; exact rationed.filled, fun within => ?_, fun within => ?_, ?_⟩
  · rw [charges, budget]
    exact rationed.kept (by omega)
  · have spent := rationed.spent (by omega)
    rw [charges, respawnsIn_concat]
    split_ifs <;> omega
  · have bound := rationed.bound
    rw [respawnsIn_concat]
    split_ifs with inside
    · have within : latest < first + window := by
        simp only [RestartAudit.respawnsIn, decide_eq_true_eq] at inside
        omega
      have spent := rationed.spent within
      have charged := rationed.charges_le within
      omega
    · omega

theorem Rationed.charged (rationed : Rationed maxRestarts window first latest audit world)
    (after : latest ≤ now) (due : next.Due now) {time : Nat} (past : time ≤ now)
    (room : world.inner.budget.exhausted time = false)
    (budget : next.inner.budget = (world.inner.budget.recordAndCheck time).1) :
    Rationed maxRestarts window first now (audit ++ [RestartAudit.charged time]) next := by
  have few : (world.inner.budget.prune time).attempts.length < maxRestarts := by
    simpa [RestartBudget.exhausted, rationed.limit] using room
  simp only [RestartBudget.recordAndCheck, room, Bool.false_eq_true, if_false] at budget
  have respawns : respawnsIn first window (audit ++ [RestartAudit.charged time]) =
      respawnsIn first window audit := by
    simp [respawnsIn_concat, RestartAudit.respawnsIn]
  have late := overtaken_le first audit (.charged time)
  have armed := next.inner.armed_le
  refine ⟨due, by rw [budget]; exact rationed.limit, by rw [budget]; exact rationed.span, ?_,
    fun within => ?_, fun within => ?_, ?_⟩
  · rw [budget]
    simpa using few
  · have entries : next.inner.budget.entriesIn first window =
        world.inner.budget.entriesIn first window +
          if first ≤ time ∧ time < first + window then 1 else 0 := by
      rw [budget, ← world.inner.budget.entriesIn_prune first window rationed.span
        (show time < first + window by omega)]
      simp [RestartBudget.entriesIn, List.countP_append, List.countP_singleton]
    have kept := rationed.kept (by omega)
    rw [entries, chargesIn_concat]
    simpa [RestartAudit.chargedIn] using kept
  · have spent := rationed.spent (by omega)
    rw [respawns, chargesIn_concat]
    by_cases inside : first ≤ time
    · have counted : RestartAudit.chargedIn first window (.charged time) = true := by
        simp only [RestartAudit.chargedIn, decide_eq_true_eq]
        omega
      rw [if_pos counted]
      omega
    · by_cases began : respawnsIn first window audit = 0
      · omega
      · have more := overtaken_charged first window audit (by omega : time < first) began
        omega
  · rw [respawns]
    exact rationed.bound.trans (Nat.add_le_add_left late _)

theorem Rationed.step (rationed : Rationed maxRestarts window first latest audit world)
    (after : latest ≤ now) (input : SupervisorStep) (clock : ∀ time ∈ input.reading, time = now) :
    Rationed maxRestarts window first now (audit ++ (world.auditedStep input).2)
      (world.auditedStep input).1 := by
  have due : (world.step input).1.Due now :=
    (rationed.due.later after).step input (fun time held => (clock time held).le)
  have spends := spends_step (rationed.due.later after) input clock
  simp only [auditedStep]
  generalize world.audit input = more at spends
  cases spends with
  | kept consecutive budget armed =>
    rw [List.append_nil]
    exact rationed.quiet after due (by rw [budget]) (by rw [budget]) (by rw [budget])
      (fun _ => by rw [budget]; rfl) armed
  | pruned time past budget armed =>
    rw [List.append_nil]
    refine rationed.quiet after due (by rw [budget]; rfl) (by rw [budget]; rfl) ?_
      (fun within => ?_) armed
    · rw [budget]
      exact RestartBudget.prune_length _ time
    · rw [budget]
      exact RestartBudget.entriesIn_prune first window _ rationed.span (by omega)
  | respawned budget before settled => exact rationed.respawned after due budget before settled
  | charged time past room budget => exact rationed.charged after due past room budget

theorem Rationed.run (rationed : Rationed maxRestarts window first latest audit world)
    (steps : List SupervisorStep)
    (times : (latest :: steps.filterMap SupervisorStep.reading).Pairwise (· ≤ ·)) :
    ∃ last, Rationed maxRestarts window first last
      (audit ++ (Runs.run auditedStep world steps).2) (Runs.run auditedStep world steps).1 := by
  induction steps generalizing latest audit world with
  | nil => exact ⟨latest, by simpa [Runs.run] using rationed⟩
  | cons input rest ih =>
    simp only [Runs.run]
    rw [← List.append_assoc]
    cases read : input.reading with
    | none =>
      rw [List.filterMap_cons_none read] at times
      exact ih (rationed.step (Nat.le_refl _) input (by simp [read])) times
    | some time =>
      rw [List.filterMap_cons_some read] at times
      obtain ⟨earlier, later⟩ := List.pairwise_cons.mp times
      exact ih (rationed.step (earlier time List.mem_cons_self) input (by simp [read])) later

end Ration

/-- In every interleaving a commit finds no child tracked, at most one child is unreaped, and every
committed child that is no longer tracked has its one terminal event. While the clock does not run
backwards, a window of the budget's length holds at most one respawn more than the budget allows,
and one more for each poll that was overtaken before it charged the budget. -/
theorem run_restarts_rationed (maxRestarts window : Nat) (steps : List SupervisorStep) :
    (∀ ticket result pollAt,
      (Runs.run step (new (.new maxRestarts window)) steps).1.calls.lookup ticket =
          some (.commit result pollAt) →
        (Runs.run step (new (.new maxRestarts window)) steps).1.inner.child = none) ∧
    (∀ pid other, (Runs.run step (new (.new maxRestarts window)) steps).1.Unreaped pid →
      (Runs.run step (new (.new maxRestarts window)) steps).1.Unreaped other → pid = other) ∧
    (∀ pid, terminals pid (Runs.run step (new (.new maxRestarts window)) steps).2 =
      if .event (.spawned pid) ∈ (Runs.run step (new (.new maxRestarts window)) steps).2 ∧
        (Runs.run step (new (.new maxRestarts window)) steps).1.inner.child ≠ some pid then 1
      else 0) ∧
    ((steps.filterMap SupervisorStep.reading).Pairwise (· ≤ ·) → ∀ first,
      respawnsIn first window (Runs.run auditedStep (new (.new maxRestarts window)) steps).2 ≤
        maxRestarts + 1 +
          overtaken first (Runs.run auditedStep (new (.new maxRestarts window)) steps).2) := by
  have mourned := Runs.run_invariant_of_forall step Mourned
    (fun _ _ input mourned => mourned.step input) [] _ steps
    (mourned_new (.new maxRestarts window))
  rw [List.nil_append] at mourned
  refine ⟨fun ticket result pollAt => mourned.exclusive.commit_vacant,
    fun pid other => mourned.exclusive.unreaped_unique, mourned.terminals_eq, fun times first => ?_⟩
  have start : (0 :: steps.filterMap SupervisorStep.reading).Pairwise (· ≤ ·) := by
    simpa using times
  obtain ⟨last, rationed⟩ := (rationed_new first).run steps start
  exact rationed.bound

-- The first restart is charged at 0 and made at 999, when it has just one millisecond left in the
-- budget's window of 1000; the second is charged at 1000 and made at 1200.
def delayedRespawn : List SupervisorStep :=
  [.start, .spawned 0 none, .resume 0 0, .die 0, .poll 0 none, .resume 1 0, .poll 999 none,
    .spawned 2 none, .resume 2 999, .die 1, .poll 1000 none, .resume 3 1000, .poll 1200 none]

theorem run_restarts_rationed_delayed :
    respawnsIn 999 1000 (Runs.run auditedStep (new (.new 1 1000)) delayedRespawn).2 ≤
      1 + 1 + overtaken 999 (Runs.run auditedStep (new (.new 1 1000)) delayedRespawn).2 :=
  (run_restarts_rationed 1 1000 delayedRespawn).2.2.2 (by decide) 999

theorem run_respawns_exceed_budget :
    (delayedRespawn.filterMap SupervisorStep.reading).Pairwise (· ≤ ·) ∧
      ¬ respawnsIn 999 1000 (Runs.run auditedStep (new (.new 1 1000)) delayedRespawn).2 ≤ 1 := by
  constructor <;> decide

end Supervision

end BetterParsec
