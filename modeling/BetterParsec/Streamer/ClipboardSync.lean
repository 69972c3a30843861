import BetterParsec.Streamer.Clipboard

set_option autoImplicit false
set_option linter.all false

/-!
# What the clipboard watcher keeps in step

When the host clipboard and the peer agree after a tick, and when nothing that
came from the peer goes back to it.
-/

namespace BetterParsec

namespace Clipboard

section Convergence

-- The tick is one in which nothing the watcher tried failed, on an open sink and
-- with a text on the clipboard that it may send.
def CleanTick (world : World) (sink : SinkState) (readOk sendOk : Bool) : Prop :=
  world.watcher.exited = false ∧ sink = .ready ∧ world.host.shareable.isSome ∧
    (world.Unpolled → readOk ∧
      ∀ text ∈ world.host.shareable,
        shouldPublish text world.watcher.lastApplied world.watcher.lastSent → sendOk)

-- After a clean tick the host text is the latest the peer knows.
def ConvergesAt (seen : List Traffic) (world : World) : Step → Prop
  | .tick sink readOk sendOk =>
    CleanTick world sink readOk sendOk →
      world.host.text = peerText (seen ++ (step world (.tick sink readOk sendOk)).2)
  | _ => True

-- A tick that finds a new sequence number gets a text the peer does not know past the
-- loop guard and out; a text that is not written finds nothing that was polled already
-- and differs from it.
def KeepsUp (seen : List Traffic) (world : World) : Step → Prop
  | .tick .ready readOk sendOk =>
    world.watcher.exited = false → world.Unpolled → ∀ text ∈ world.host.shareable,
      peerText seen = some text ∨
        (readOk ∧ sendOk ∧
          shouldPublish text world.watcher.lastApplied world.watcher.lastSent)
  | .inbound text outcome =>
    world.Delivers → exceedsCap text ∨ outcome = .refused →
      world.Unpolled ∨ ∀ other ∈ world.host.shareable, other = text
  | _ => True

-- What has been polled is known to the peer.
structure Converged (seen : List Traffic) (world : World) : Prop where
  past : ∀ seq ∈ world.watcher.lastSeq, seq ≤ world.host.seq
  known : world.watcher.lastSeq = some world.host.seq →
    ∀ text ∈ world.host.shareable, peerText seen = some text

theorem converged_start (host : Host) : Converged [] (World.start host) :=
  ⟨fun _ polled => (nomatch polled), fun polled => (nomatch polled)⟩

-- A changed clipboard has not been polled.
theorem Converged.changed {seen later : List Traffic} {world : World} (h : Converged seen world)
    (watcher : Watcher) (same : watcher.lastSeq = world.watcher.lastSeq) (text : Option String) :
    Converged later ⟨watcher, ⟨text, world.host.seq + 1⟩⟩ := by
  constructor
  · intro seq polled
    have bound := h.past seq (same ▸ polled)
    exact Nat.le_succ_of_le bound
  · intro polled
    have bound := h.past _ (same ▸ polled)
    exact absurd bound (Nat.not_succ_le_self _)

theorem Converged.poll {seen : List Traffic} {world : World} (h : Converged seen world)
    (readOk sendOk : Bool) (guarded : KeepsUp seen world (.tick .ready readOk sendOk))
    (running : world.watcher.exited = false) :
    Converged (seen ++ (poll world.watcher world.host readOk sendOk).2)
      { world with watcher := (Clipboard.poll world.watcher world.host readOk sendOk).1 } := by
  constructor
  · intro seq polled
    rw [poll_lastSeq] at polled
    cases polled
    exact Nat.le_refl _
  · intro _ text found
    rw [poll_traffic]
    cases sent : outgoing world.watcher world.host readOk sendOk with
    | some other =>
      have same := outgoing_mem_shareable sent
      rw [Option.mem_def.mp found] at same
      cases same
      exact peerText_concat seen _
    | none =>
      rw [Option.toList_none, List.map_nil, List.append_nil]
      by_cases polled : world.watcher.lastSeq = some world.host.seq
      · exact h.known polled text found
      · rcases guarded running polled text found with known | ⟨read, send, published⟩
        · exact known
        -- A text that may be published is sent when both the read and the send work.
        · exfalso
          rw [outgoing, if_neg polled, read, send, Option.mem_def.mp found] at sent
          simp [Option.filter, published] at sent

theorem Converged.inbound {seen : List Traffic} {world : World} (h : Converged seen world)
    (text : String) (outcome : WriteOutcome) (guarded : KeepsUp seen world (.inbound text outcome))
    (delivers : world.Delivers) :
    Converged (seen ++ [Traffic.received text]) (onInbound world text outcome) := by
  have untouched (watcher : Watcher) (same : watcher.lastSeq = world.watcher.lastSeq)
      (missed : exceedsCap text ∨ outcome = .refused) :
      Converged (seen ++ [Traffic.received text]) { world with watcher := watcher } := by
    refine ⟨fun seq polled => h.past seq (same ▸ polled), fun polled other found => ?_⟩
    rw [peerText_concat]
    rcases guarded delivers missed with unpolled | equal
    · exact absurd (same ▸ polled) unpolled
    · rw [equal other found]
      rfl
  rw [onInbound]
  split
  next capped => exact untouched world.watcher rfl (.inl capped)
  next =>
    cases outcome with
    | done => exact h.changed { world.watcher with lastApplied := some text } rfl _
    | emptied => exact h.changed { world.watcher with lastApplied := some text } rfl none
    | refused => exact untouched { world.watcher with lastApplied := some text } rfl (.inr rfl)

theorem Converged.step {seen : List Traffic} {world : World} (h : Converged seen world)
    (input : Step) (guarded : KeepsUp seen world input) :
    Converged (seen ++ (step world input).2) (Clipboard.step world input).1 := by
  cases input with
  | hostCopy text =>
    rw [Clipboard.step, List.append_nil]
    exact h.changed world.watcher rfl text
  | tick sink readOk sendOk =>
    rw [Clipboard.step]
    split
    next => simpa using h
    next running =>
      rw [Bool.not_eq_true] at running
      cases sink with
      | wait => simpa [onTick] using h
      | closed => exact ⟨by simpa [onTick] using h.past, by simpa [onTick] using h.known⟩
      | ready => exact h.poll readOk sendOk guarded running
  | inbound text outcome =>
    rw [Clipboard.step]
    split
    next => simpa using h
    next delivers => exact h.inbound text outcome guarded (delivers_iff.mpr delivers)
  | inboundClosed =>
    rw [Clipboard.step, List.append_nil]
    exact ⟨h.past, h.known⟩

theorem Converged.convergesAt {seen : List Traffic} {world : World} (h : Converged seen world)
    (input : Step) (guarded : KeepsUp seen world input) : ConvergesAt seen world input := by
  cases input with
  | tick sink readOk sendOk =>
    rintro ⟨running, rfl, shareable, -⟩
    obtain ⟨text, found⟩ := Option.isSome_iff_exists.mp shareable
    have after := h.step _ guarded
    have ticked : Clipboard.step world (.tick .ready readOk sendOk) =
        ({ world with watcher := (Clipboard.poll world.watcher world.host readOk sendOk).1 },
          (Clipboard.poll world.watcher world.host readOk sendOk).2) := by
      simp [Clipboard.step, onTick, running]
    rw [ticked] at after
    rw [ticked, after.known (poll_lastSeq ..) text found]
    exact (Option.filter_eq_some_iff.mp found).1
  | hostCopy text => trivial
  | inbound text outcome => trivial
  | inboundClosed => trivial

/-- In every run that keeps up, the host clipboard and the peer agree after every clean tick. -/
theorem run_converges (host : Host) (inputs : List Step)
    (guarded : Runs.Along step KeepsUp [] (World.start host) inputs) :
    Runs.Along step ConvergesAt [] (World.start host) inputs :=
  Runs.along_of_invariant step KeepsUp Converged
    (fun _ _ input converged guarded => converged.step input guarded)
    (fun _ _ input converged guarded => converged.convergesAt input guarded)
    [] (World.start host) inputs (converged_start host) guarded

instance decidableCleanTick (world : World) (sink : SinkState) (readOk sendOk : Bool) :
    Decidable (CleanTick world sink readOk sendOk) :=
  inferInstanceAs (Decidable (_ ∧ _ ∧ _ ∧ _))

instance decidableConvergesAt (seen : List Traffic) (world : World) (input : Step) :
    Decidable (ConvergesAt seen world input) :=
  match input with
  | .tick _ _ _ => inferInstanceAs (Decidable (_ → _))
  | .hostCopy _ => .isTrue trivial
  | .inbound _ _ => .isTrue trivial
  | .inboundClosed => .isTrue trivial

instance decidableKeepsUp (seen : List Traffic) (world : World) (input : Step) :
    Decidable (KeepsUp seen world input) :=
  match input with
  | .tick .ready _ _ => inferInstanceAs (Decidable (_ → _ → _))
  | .tick .wait _ _ => .isTrue trivial
  | .tick .closed _ _ => .isTrue trivial
  | .hostCopy _ => .isTrue trivial
  | .inbound _ _ => inferInstanceAs (Decidable (_ → _ → _))
  | .inboundClosed => .isTrue trivial

theorem run_converges_both_ways :
    Runs.Along step ConvergesAt [] (World.start ⟨none, 0⟩)
      [.hostCopy (some "a"), .tick .ready true true, .inbound "b" .done, .tick .ready true true] :=
  run_converges ⟨none, 0⟩ _ (by decide)

-- The text the peer has replaced since counts as sent already.
theorem run_suppresses_copied_again :
    ¬ ∀ (host : Host) (inputs : List Step),
      Runs.Along step ConvergesAt [] (World.start host) inputs := by
  intro converges
  have run := converges ⟨none, 0⟩
    [.hostCopy (some "a"), .tick .ready true true, .inbound "b" .done, .tick .ready true true,
      .hostCopy (some "a"), .tick .ready true true]
  exact absurd run (by decide)

end Convergence

section LoopGuard

-- A tick would find nothing to send.
def World.Quiet (world : World) : Prop :=
  world.Unpolled → ∀ text ∈ world.host.shareable,
    ¬shouldPublish text world.watcher.lastApplied world.watcher.lastSent

-- A text that is written is what a read gives back; one that is not written finds the
-- clipboard polled, or a text on it that the loop guard holds back from now on.
def HeldBack (_ : List Traffic) (world : World) : Step → Prop
  | .inbound text outcome =>
    world.Delivers →
      if exceedsCap text then world.Quiet
      else match outcome with
        | .done => storedText text = text ∨ world.watcher.lastSent = some (storedText text)
        | .refused => world.Unpolled → ∀ other ∈ world.host.shareable,
            ¬shouldPublish other (some text) world.watcher.lastSent
        | .emptied => True
  | _ => True

-- Nothing is sent once a text has been received.
def NoEcho (before : List Traffic) : Traffic → Prop
  | .sent _ => ∀ text, .received text ∉ before
  | .received _ => True

structure LoopGuarded (seen : List Traffic) (world : World) : Prop where
  silent : Runs.Emissions NoEcho seen
  quiet : (∃ text, .received text ∈ seen) → world.Quiet

theorem outgoing_eq_none_of_quiet {world : World} (quiet : world.Quiet) (readOk sendOk : Bool) :
    outgoing world.watcher world.host readOk sendOk = none := by
  cases sent : outgoing world.watcher world.host readOk sendOk with
  | none => rfl
  | some text =>
    rw [outgoing] at sent
    split at sent
    · cases sent
    next unpolled =>
      split at sent
      · obtain ⟨found, published⟩ := Option.filter_eq_some_iff.mp sent
        exact absurd published (quiet unpolled text found)
      · cases sent

theorem LoopGuarded.poll {seen : List Traffic} {world : World} (h : LoopGuarded seen world)
    (readOk sendOk : Bool) :
    LoopGuarded (seen ++ (poll world.watcher world.host readOk sendOk).2)
      { world with watcher := (Clipboard.poll world.watcher world.host readOk sendOk).1 } := by
  constructor
  · by_cases heard : ∃ text, .received text ∈ seen
    · rw [poll_traffic, outgoing_eq_none_of_quiet (h.quiet heard)]
      simpa using h.silent
    · rw [poll_traffic]
      cases outgoing world.watcher world.host readOk sendOk with
      | none => simpa using h.silent
      | some text => exact h.silent.concat fun other member => heard ⟨other, member⟩
  · intro _ unpolled
    exact absurd (poll_lastSeq ..) unpolled

theorem LoopGuarded.inbound {seen : List Traffic} {world : World} (h : LoopGuarded seen world)
    (text : String) (outcome : WriteOutcome) (guarded : HeldBack seen world (.inbound text outcome))
    (delivers : world.Delivers) :
    LoopGuarded (seen ++ [Traffic.received text]) (onInbound world text outcome) := by
  refine ⟨h.silent.concat trivial, fun _ => ?_⟩
  have held := guarded delivers
  rw [onInbound]
  split
  next capped =>
    rw [if_pos capped] at held
    exact held
  next small =>
    rw [if_neg small] at held
    cases outcome with
    | done =>
      rintro - other found published
      have read : storedText text = other :=
        Option.some.inj (Option.filter_eq_some_iff.mp found).1
      obtain ⟨fresh, unsent⟩ := (shouldPublish_iff _ _ _).mp published
      rcases held with whole | sent
      · exact fresh (by rw [← read, whole])
      · exact unsent (by rw [← read, sent])
    | refused => exact held
    | emptied =>
      rintro - other found
      cases found

theorem LoopGuarded.step {seen : List Traffic} {world : World} (h : LoopGuarded seen world)
    (input : Step) (uncopied : ∀ text, input ≠ .hostCopy text)
    (guarded : HeldBack seen world input) :
    LoopGuarded (seen ++ (step world input).2) (Clipboard.step world input).1 := by
  cases input with
  | hostCopy text => exact absurd rfl (uncopied text)
  | tick sink readOk sendOk =>
    rw [Clipboard.step]
    split
    next => simpa using h
    next =>
      cases sink with
      | wait => simpa [onTick] using h
      | closed =>
        rw [onTick, List.append_nil]
        exact ⟨h.silent, h.quiet⟩
      | ready => exact h.poll readOk sendOk
  | inbound text outcome =>
    rw [Clipboard.step]
    split
    next => simpa using h
    next delivers => exact h.inbound text outcome guarded (delivers_iff.mpr delivers)
  | inboundClosed =>
    rw [Clipboard.step, List.append_nil]
    exact ⟨h.silent, h.quiet⟩

/-- In every run without a copy on the host whose received texts are held back, nothing is sent
once a text has been received. -/
theorem run_never_echoes (host : Host) (inputs : List Step)
    (uncopied : ∀ text, Step.hostCopy text ∉ inputs)
    (guarded : Runs.Along step HeldBack [] (World.start host) inputs) :
    Runs.Emissions NoEcho (Runs.run step (World.start host) inputs).2 := by
  have alone : Runs.Along step (fun _ _ input => ∀ text, input ≠ .hostCopy text) []
      (World.start host) inputs := by
    apply Runs.along_of_forall
    rintro input member _ _ text rfl
    exact uncopied text member
  have kept := Runs.run_invariant step _ LoopGuarded
    (fun _ _ input held both => held.step input both.1 both.2) [] (World.start host) inputs
    ⟨Runs.emissions_nil _, fun ⟨_, heard⟩ => nomatch heard⟩ (alone.and guarded)
  simpa using kept.silent

instance decidableHeldBack (seen : List Traffic) (world : World) (input : Step) :
    Decidable (HeldBack seen world input) :=
  match input with
  | .inbound text outcome =>
    have : Decidable world.Quiet := inferInstanceAs (Decidable (_ → _))
    match outcome with
    | .done => inferInstanceAs (Decidable (_ → if exceedsCap text then _ else _ ∨ _))
    | .refused => inferInstanceAs (Decidable (_ → if exceedsCap text then _ else _ → _))
    | .emptied => inferInstanceAs (Decidable (_ → if exceedsCap text then _ else True))
  | .hostCopy _ => .isTrue trivial
  | .tick _ _ _ => .isTrue trivial
  | .inboundClosed => .isTrue trivial

theorem run_never_echoes_two_texts :
    Runs.Emissions NoEcho (Runs.run step (World.start ⟨some "x", 7⟩)
      [.tick .ready true true, .inbound "a" .done, .tick .ready false true, .inbound "b" .refused,
        .tick .ready true true]).2 :=
  run_never_echoes ⟨some "x", 7⟩ _ (by simp) (by decide)

-- The second text counts as applied although its write failed, and the first goes back.
theorem run_echoes_earlier_text :
    ¬ ∀ (host : Host) (inputs : List Step), (∀ text, Step.hostCopy text ∉ inputs) →
      Runs.Emissions NoEcho (Runs.run step (World.start host) inputs).2 := by
  intro silent
  have run := silent ⟨none, 0⟩
    [.inbound "a" .done, .inbound "b" .refused, .tick .ready true true] (by simp)
  exact run [.received "a", .received "b"] (.sent "a") [] (by decide) "a" (by simp)

end LoopGuard

end Clipboard

end BetterParsec
