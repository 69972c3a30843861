import BetterParsec.Library.Runs
import BetterParsec.Library.Utf8
import BetterParsec.Updater.Verify

set_option autoImplicit false
set_option linter.all false

/-!
# The cached status of a staged update

`verify_staged` and `UpdateStatusCache` of `app-native/src/update.rs`, with the staged
set that is on disk, the threads that verify it, and a call of `status` in the two
parts between which the disk may change.
-/

namespace BetterParsec

namespace Update

inductive UpdateStatus where
  | idle
  | checking
  | staged (version : String)
  | verifyFailed (reason : String)
  deriving DecidableEq

-- The staged directory: its manifest with the time it was written, and whatever else is there.
structure StagedSet where
  manifest : List UInt8
  modified : Nat
  others : List (String × FileTree)

structure ManifestFingerprint where
  len : Nat
  modified : Nat
  deriving DecidableEq

def fingerprint (set : StagedSet) : ManifestFingerprint := ⟨set.manifest.length, set.modified⟩

-- What verification uses beside the disk; `explain` is the text of an error.
structure Verifier (Key : Type) where
  os : Os
  crypto : Crypto Key
  trustRoot : Key
  runningProtocolVersions : ProtocolVersions
  fromJson : String → Except String SignedManifest
  explain : VerifyError → String

variable {Key : Type} (verifier : Verifier Key)

def verifySet (set : StagedSet) (signed : SignedManifest) : Except VerifyError VerifiedSet :=
  let entries := (manifestFileName, FileTree.file set.manifest) :: set.others
  verifyStagedSet ⟨verifier.os, .dir [("staged", .dir entries)]⟩ verifier.crypto ["staged"] signed
    verifier.trustRoot verifier.runningProtocolVersions

def verifyStaged : Option StagedSet → UpdateStatus
  | none => .idle
  | some set =>
      match Utf8.decode set.manifest with
      | none => .verifyFailed "cannot read manifest: stream did not contain valid UTF-8"
      | some text =>
          match verifier.fromJson (String.ofList text) with
          | .error message => .verifyFailed ("manifest is not valid JSON: " ++ message)
          | .ok signed =>
              match verifySet verifier set signed with
              | .ok _ => .staged signed.manifest.setVersion
              | .error reason => .verifyFailed (verifier.explain reason)

inductive TryRecv where
  | ok (status : UpdateStatus)
  | empty
  | disconnected

-- A receiver is the index of the thread that has its sender.
structure UpdateStatusCache where
  confirmed : Option ManifestFingerprint × UpdateStatus := (none, .idle)
  checking : Option (ManifestFingerprint × Nat) := none

namespace UpdateStatusCache

def absorb (cache : UpdateStatusCache) (tryRecv : Nat → TryRecv) : UpdateStatusCache :=
  match cache.checking with
  | some (fp, rx) =>
      match tryRecv rx with
      | .ok status => { confirmed := (some fp, status), checking := none }
      | .disconnected => { cache with checking := none }
      | .empty => cache
  | none => cache

structure Answered where
  cache : UpdateStatusCache
  status : UpdateStatus
  spawned : Bool := false

-- `fresh` is the thread that is spawned if one is.
def status (cache : UpdateStatusCache) (currentFp : Option ManifestFingerprint)
    (tryRecv : Nat → TryRecv) (fresh : Nat) : Answered :=
  let cache := cache.absorb tryRecv
  match currentFp with
  | none => { cache := { cache with confirmed := (none, .idle) }, status := .idle }
  | some fp =>
      if cache.confirmed.1 = some fp then { cache, status := cache.confirmed.2 }
      else if cache.checking.any (·.1 = fp) then { cache, status := .checking }
      else
        { cache := { cache with checking := some (fp, fresh) }
          status := .checking
          spawned := true }

end UpdateStatusCache

inductive Progress where
  | started
  | verified (status : UpdateStatus)
  | sent (status : UpdateStatus)
  | gone

-- A thread, and the set that was there when the call that spawned it took its fingerprint.
structure Thread where
  present : Option StagedSet
  progress : Progress := .started

-- `looked` is the set a call found that has not returned yet.
structure Session where
  disk : Option StagedSet
  cache : UpdateStatusCache := {}
  threads : List Thread := []
  looked : Option (Option StagedSet) := none

inductive Event where
  | install (set : StagedSet)
  | remove
  | look
  | answer
  | read (thread : Nat)
  | send (thread : Nat)
  | die (thread : Nat)

-- What a call returned, and the set whose fingerprint it took.
structure Answer where
  present : Option StagedSet
  status : UpdateStatus

def Thread.read (disk : Option StagedSet) (thread : Thread) : Thread :=
  match thread.progress with
  | .started => { thread with progress := .verified (verifyStaged verifier disk) }
  | _ => thread

def Thread.send (thread : Thread) : Thread :=
  match thread.progress with
  | .verified status => { thread with progress := .sent status }
  | _ => thread

-- Without a result: the channel is disconnected.
def Thread.die (thread : Thread) : Thread :=
  match thread.progress with
  | .sent _ => thread
  | _ => { thread with progress := .gone }

def Progress.received : Progress → TryRecv
  | .sent status => .ok status
  | .gone => .disconnected
  | .started | .verified _ => .empty

namespace Session

def tryRecv (session : Session) (rx : Nat) : TryRecv :=
  match session.threads[rx]? with
  | some thread => thread.progress.received
  | none => .disconnected

def answered (session : Session) (present : Option StagedSet) : UpdateStatusCache.Answered :=
  session.cache.status (present.map fingerprint) session.tryRecv session.threads.length

def step (session : Session) : Event → Session × List Answer
  | .install set => ({ session with disk := some set }, [])
  | .remove => ({ session with disk := none }, [])
  | .look => ({ session with looked := some (session.looked.getD session.disk) }, [])
  | .answer =>
      match session.looked with
      | none => (session, [])
      | some present =>
          let answered := session.answered present
          let threads :=
            if answered.spawned then session.threads ++ [{ present }] else session.threads
          ({ session with cache := answered.cache, threads, looked := none },
            [⟨present, answered.status⟩])
  | .read thread =>
      ({ session with
          threads := session.threads.modify thread (Thread.read verifier session.disk) }, [])
  | .send thread => ({ session with threads := session.threads.modify thread Thread.send }, [])
  | .die thread => ({ session with threads := session.threads.modify thread Thread.die }, [])

end Session

section Answers

variable {verifier} {sets : Set StagedSet}

def Answer.Right (verifier : Verifier Key) (answer : Answer) : Prop :=
  answer.status ≠ .checking → answer.status = verifyStaged verifier answer.present

def Event.Within (sets : Set StagedSet) : Event → Prop
  | .install set => set ∈ sets
  | _ => True

-- A verification whose result is waited for finds what it would have found in the set whose
-- fingerprint it was spawned for.
def Event.Faithful (verifier : Verifier Key) (session : Session) : Event → Prop
  | .read t => ∀ fp thread, session.cache.checking = some (fp, t) → session.threads[t]? = some thread →
      verifyStaged verifier session.disk = verifyStaged verifier thread.present
  | _ => True

def Progress.Right (verifier : Verifier Key) (present : Option StagedSet) (progress : Progress) :
    Prop :=
  ∀ status, progress = .verified status ∨ progress = .sent status →
    status = verifyStaged verifier present

-- What is cached, or will be, under a fingerprint is the status of the set that has it.
structure Session.Sound (verifier : Verifier Key) (sets : Set StagedSet) (session : Session) :
    Prop where
  disk : ∀ set ∈ session.disk, set ∈ sets
  looked : ∀ present ∈ session.looked, ∀ set ∈ present, set ∈ sets
  confirmed : ∀ set ∈ sets, session.cache.confirmed.1 = some (fingerprint set) →
    session.cache.confirmed.2 = verifyStaged verifier (some set)
  checking : ∀ fp t, session.cache.checking = some (fp, t) → ∃ set ∈ sets, ∃ progress,
    fp = fingerprint set ∧ session.threads[t]? = some ⟨some set, progress⟩ ∧
      progress.Right verifier (some set)

/-- Taking up a result keeps the cache sound. -/
theorem Session.Sound.absorb {session : Session} (distinct : Set.InjOn fingerprint sets)
    (sound : session.Sound verifier sets) :
    Session.Sound verifier sets { session with cache := session.cache.absorb session.tryRecv } := by
  obtain ⟨disk, looked, confirmed, checking⟩ := sound
  cases waits : session.cache.checking with
  | none =>
    have same : session.cache.absorb session.tryRecv = session.cache := by
      simp only [UpdateStatusCache.absorb, waits]
    rw [same]
    exact ⟨disk, looked, confirmed, checking⟩
  | some waiting =>
    obtain ⟨fp, t⟩ := waiting
    obtain ⟨set, within, progress, named, thread, right⟩ := checking fp t waits
    have received : session.tryRecv t = progress.received := by rw [Session.tryRecv, thread]
    cases progress with
    | sent status =>
      have taken : session.cache.absorb session.tryRecv =
          { confirmed := (some fp, status), checking := none } := by
        simp only [UpdateStatusCache.absorb, waits, received, Progress.received]
      rw [taken]
      refine ⟨disk, looked, fun other inside same => ?_, fun _ _ found => by simp at found⟩
      have equal : other = set :=
        distinct inside within ((Option.some.inj same).symm.trans named)
      rw [equal]
      exact right status (.inr rfl)
    | gone =>
      have left : session.cache.absorb session.tryRecv =
          { session.cache with checking := none } := by
        simp only [UpdateStatusCache.absorb, waits, received, Progress.received]
      rw [left]
      exact ⟨disk, looked, confirmed, fun _ _ found => by simp at found⟩
    | started | verified =>
      have same : session.cache.absorb session.tryRecv = session.cache := by
        simp only [UpdateStatusCache.absorb, waits, received, Progress.received]
      rw [same]
      exact ⟨disk, looked, confirmed, checking⟩

/-- A call answers right from a sound cache, and leaves it sound. -/
theorem Session.Sound.answer {session : Session} (distinct : Set.InjOn fingerprint sets)
    (sound : session.Sound verifier sets) :
    Session.Sound verifier sets (session.step verifier .answer).1 ∧
      ∀ answer ∈ (session.step verifier .answer).2, answer.Right verifier := by
  obtain ⟨disk, -, confirmed, checking⟩ := sound.absorb distinct
  cases call : session.looked with
  | none => simpa [Session.step, call] using sound
  | some present =>
    cases present with
    | none =>
      simp only [Session.step, call, Session.answered, UpdateStatusCache.status, Option.map_none,
        List.mem_singleton, forall_eq, Bool.false_eq_true, if_false]
      exact ⟨⟨disk, by simp, by simp, checking⟩, fun _ => rfl⟩
    | some set =>
      have within : set ∈ sets := sound.looked _ call set rfl
      simp only [Session.step, call, Session.answered, UpdateStatusCache.status, Option.map_some,
        List.mem_singleton, forall_eq]
      by_cases known :
          (session.cache.absorb session.tryRecv).confirmed.1 = some (fingerprint set)
      · simp only [known, if_true, Bool.false_eq_true, if_false]
        exact ⟨⟨disk, by simp, confirmed, checking⟩, fun _ => confirmed set within known⟩
      by_cases waiting : (session.cache.absorb session.tryRecv).checking.any
          (·.1 = fingerprint set) = true
      · simp only [known, waiting, if_true, Bool.false_eq_true, if_false]
        exact ⟨⟨disk, by simp, confirmed, checking⟩, fun pending => absurd rfl pending⟩
      · simp only [known, waiting, if_true, Bool.false_eq_true, if_false]
        refine ⟨⟨disk, by simp, confirmed, fun fp t spawned => ?_⟩, fun pending => absurd rfl pending⟩
        obtain ⟨rfl, rfl⟩ := Prod.mk.inj (Option.some.inj spawned)
        refine ⟨set, within, .started, rfl, by simp, fun status found => ?_⟩
        simp at found

/-- Changing one thread keeps the cache sound if it stays a thread for its set with a right result. -/
theorem Session.Sound.modify {session : Session} (sound : session.Sound verifier sets) {t : Nat}
    {change : Thread → Thread}
    (keeps : ∀ fp set progress, session.cache.checking = some (fp, t) →
      session.threads[t]? = some ⟨some set, progress⟩ → progress.Right verifier (some set) →
      ∃ next, change ⟨some set, progress⟩ = ⟨some set, next⟩ ∧
        Progress.Right verifier (some set) next) :
    Session.Sound verifier sets { session with threads := session.threads.modify t change } := by
  refine ⟨sound.disk, sound.looked, sound.confirmed, fun fp other waits => ?_⟩
  obtain ⟨set, within, progress, named, thread, right⟩ := sound.checking fp other waits
  by_cases same : t = other
  · subst same
    obtain ⟨next, changed, right'⟩ := keeps fp set progress waits thread right
    refine ⟨set, within, next, named, ?_, right'⟩
    simp [thread, changed]
  · exact ⟨set, within, progress, named, by simp [thread, same], right⟩

theorem Session.Sound.step {session : Session} (distinct : Set.InjOn fingerprint sets)
    (sound : session.Sound verifier sets) {event : Event} (within : event.Within sets)
    (faithful : event.Faithful verifier session) :
    Session.Sound verifier sets (session.step verifier event).1 ∧
      ∀ answer ∈ (session.step verifier event).2, answer.Right verifier := by
  cases event with
  | install set =>
    refine ⟨⟨fun other found => ?_, sound.looked, sound.confirmed, sound.checking⟩, by simp [Session.step]⟩
    rw [← Option.some.inj found]
    exact within
  | remove => exact ⟨⟨by simp [Session.step], sound.looked, sound.confirmed, sound.checking⟩, by simp [Session.step]⟩
  | look =>
    refine ⟨⟨sound.disk, fun present found set here => ?_, sound.confirmed, sound.checking⟩,
      by simp [Session.step]⟩
    cases call : session.looked with
    | none =>
      simp only [Session.step, call, Option.getD_none, Option.mem_some_iff] at found
      exact sound.disk set (found ▸ here)
    | some earlier =>
      simp only [Session.step, call, Option.getD_some, Option.mem_some_iff] at found
      exact sound.looked earlier call set (found ▸ here)
  | answer => exact sound.answer distinct
  | read t =>
    refine ⟨sound.modify fun fp set progress waits thread right => ?_, by simp [Session.step]⟩
    cases progress with
    | started =>
      refine ⟨.verified (verifyStaged verifier session.disk), rfl, fun status found => ?_⟩
      have read : status = verifyStaged verifier session.disk := by simpa [eq_comm] using found
      exact read.trans (faithful fp _ waits thread)
    | verified | sent | gone => exact ⟨_, rfl, right⟩
  | send t =>
    refine ⟨sound.modify fun fp set progress waits thread right => ?_, by simp [Session.step]⟩
    cases progress with
    | verified status =>
      refine ⟨.sent status, rfl, fun other found => ?_⟩
      exact right other (by simpa [or_comm] using found)
    | started | sent | gone => exact ⟨_, rfl, right⟩
  | die t =>
    refine ⟨sound.modify fun fp set progress waits thread right => ?_, by simp [Session.step]⟩
    cases progress with
    | sent => exact ⟨_, rfl, right⟩
    | started | verified | gone => exact ⟨.gone, rfl, fun other found => by simp at found⟩

/-- In every run whose verifications are faithful, each call that returns anything but `Checking`
returns the status of the set whose fingerprint it took. -/
theorem answers_right_of_faithful (distinct : Set.InjOn fingerprint sets)
    {disk : Option StagedSet} (start : ∀ set ∈ disk, set ∈ sets) (events : List Event)
    (guarded : Runs.Along (Session.step verifier)
      (fun _ session event => event.Within sets ∧ event.Faithful verifier session) []
      { disk } events) :
    ∀ answer ∈ (Runs.run (Session.step verifier) { disk } events).2,
      answer.status ≠ .checking → answer.status = verifyStaged verifier answer.present := by
  have initial : Session.Sound verifier sets { disk } :=
    ⟨start, by simp, by simp, by simp⟩
  have kept := Runs.run_invariant (Session.step verifier) _
    (fun answers session => session.Sound verifier sets ∧ ∀ answer ∈ answers, answer.Right verifier)
    (fun answers session event held guard => by
      obtain ⟨sound, right⟩ := held.1.step distinct guard.1 guard.2
      exact ⟨sound, List.forall_mem_append.mpr ⟨held.2, right⟩⟩)
    [] { disk } events ⟨initial, by simp⟩ guarded
  exact kept.2

theorem verifyStaged_final (disk : Option StagedSet) : verifyStaged verifier disk ≠ .checking := by
  unfold verifyStaged
  split
  · simp
  · split
    · simp
    · split
      · simp
      · split <;> simp

/-- A verification that is not faithful can always come out: once its set is back, a call answers
with what it found elsewhere. -/
theorem Session.Sound.wrong_read_surfaces {session : Session} (sound : session.Sound verifier sets)
    (returned : session.looked = none) {fp : ManifestFingerprint} {t : Nat} {set : StagedSet}
    (waits : session.cache.checking = some (fp, t))
    (thread : session.threads[t]? = some { present := some set })
    (differs : verifyStaged verifier session.disk ≠ verifyStaged verifier (some set)) :
    ∃ answer ∈ (Runs.run (Session.step verifier) session
      [.read t, .send t, .install set, .look, .answer]).2, ¬answer.Right verifier := by
  obtain ⟨other, -, progress, named, found, -⟩ := sound.checking fp t waits
  have same : other = set := by
    rw [thread] at found
    simpa [eq_comm] using congrArg Thread.present (Option.some.inj found)
  refine ⟨⟨some set, verifyStaged verifier session.disk⟩, ?_, fun right => ?_⟩
  · simp [Runs.run, Session.step, Session.answered, UpdateStatusCache.status, returned,
      UpdateStatusCache.absorb, waits, Session.tryRecv, thread, Thread.read, Thread.send,
      Progress.received, named, same]
  · exact differs (right (verifyStaged_final _))

end Answers

-- A verifier on which `{}` is what it is: JSON, but no signed manifest.
def plainVerifier : Verifier Unit where
  os := .unix
  crypto := ⟨fun _ => .error "Odd number of digits", fun _ => "", fun _ _ _ => false⟩
  trustRoot := ()
  runningProtocolVersions := ⟨2, 1⟩
  fromJson _ := .error "missing field `manifest` at line 1 column 2"
  explain _ := "signature does not match the trust root"

def emptyManifest : StagedSet := ⟨[123, 125], 0, []⟩

theorem answers_right_of_faithful_installed :
    ∃ answers, (Runs.run (Session.step plainVerifier) { disk := none }
      [.install emptyManifest, .look, .answer, .read 0, .send 0, .look, .answer]).2 = answers ∧
      ∀ answer ∈ answers,
        answer.status ≠ .checking → answer.status = verifyStaged plainVerifier answer.present := by
  have single : Set.InjOn fingerprint {emptyManifest} := Set.injOn_singleton _ _
  refine ⟨_, rfl, answers_right_of_faithful single (by simp) _ ?_⟩
  refine ⟨⟨rfl, trivial⟩, ⟨trivial, trivial⟩, ⟨trivial, trivial⟩, ⟨trivial, ?_⟩,
    ⟨trivial, trivial⟩, ⟨trivial, trivial⟩, ⟨trivial, trivial⟩, trivial⟩
  intro fp thread _ found
  rw [← Option.some.inj found]
  rfl

/-- The set is removed and put back while it is verified: the call after that answers that there is
none, and keeps answering so. -/
theorem answers_not_right : ¬∀ answer ∈ (Runs.run (Session.step plainVerifier) { disk := none }
      [.install emptyManifest, .look, .answer, .remove, .read 0, .install emptyManifest, .send 0,
        .look, .answer, .look, .answer]).2,
      answer.status ≠ .checking → answer.status = verifyStaged plainVerifier answer.present := by
  intro right
  have wrong := right ⟨some emptyManifest, .idle⟩ (by
    simp [Runs.run, Session.step, Session.answered, UpdateStatusCache.status,
      UpdateStatusCache.absorb, Session.tryRecv, Thread.read, Thread.send, Progress.received,
      verifyStaged])
  have failed : ∃ reason, verifyStaged plainVerifier (some emptyManifest) = .verifyFailed reason :=
    ⟨_, rfl⟩
  obtain ⟨reason, failed⟩ := failed
  rw [failed] at wrong
  simp at wrong

end Update

end BetterParsec
