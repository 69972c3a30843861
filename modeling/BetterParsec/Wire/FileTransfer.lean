import BetterParsec.Library.Runs

set_option autoImplicit false
set_option linter.all false

/-!
# File transfers

`FileTransfer` of `common/src/file_transfer.rs`: a transfer is offered with its
size, needs consent before bytes flow, and completes when every byte arrived
and the hash matches.
-/

namespace BetterParsec

inductive TransferPhase where
  | offered
  | accepted
  | complete
  | cancelled
  deriving DecidableEq

structure FileTransfer where
  phase : TransferPhase
  total : UInt64
  received : UInt64
  deriving DecidableEq

inductive TransferCall where
  | accept
  | receive (len : UInt64)
  | commit (hashMatches : Bool)
  | cancel
  deriving DecidableEq

-- The calls with what they returned.
inductive TransferEvent where
  | accept (consented : Bool)
  | receive (len : UInt64) (taken : Bool)
  | commit (hashMatches committed : Bool)
  | cancel
  deriving DecidableEq

namespace FileTransfer

def saturatingAdd (a b : UInt64) : UInt64 :=
  UInt64.ofNat (min (a.toNat + b.toNat) 0xFFFFFFFFFFFFFFFF)

def offer (total quota : UInt64) : FileTransfer :=
  { phase := if total > quota then .cancelled else .offered, total, received := 0 }

def accept (transfer : FileTransfer) : FileTransfer × Bool :=
  if transfer.phase = .offered then ({ transfer with phase := .accepted }, true)
  else (transfer, false)

def receive (transfer : FileTransfer) (len : UInt64) : FileTransfer × Bool :=
  if transfer.phase ≠ .accepted then (transfer, false)
  else
    let next := saturatingAdd transfer.received len
    if next > transfer.total then ({ transfer with phase := .cancelled }, false)
    else ({ transfer with received := next }, true)

def fullyReceived (transfer : FileTransfer) : Bool :=
  transfer.phase = .accepted && transfer.received = transfer.total

def commit (transfer : FileTransfer) (hashMatches : Bool) : FileTransfer × Bool :=
  if transfer.phase = .accepted ∧ transfer.received = transfer.total ∧ hashMatches then
    ({ transfer with phase := .complete }, true)
  else if transfer.phase = .accepted then ({ transfer with phase := .cancelled }, false)
  else (transfer, false)

def cancel (transfer : FileTransfer) : FileTransfer :=
  if transfer.phase = .offered ∨ transfer.phase = .accepted then
    { transfer with phase := .cancelled }
  else transfer

def step (transfer : FileTransfer) : TransferCall → FileTransfer × List TransferEvent
  | .accept => (transfer.accept.1, [.accept transfer.accept.2])
  | .receive len => ((transfer.receive len).1, [.receive len (transfer.receive len).2])
  | .commit hashMatches =>
      ((transfer.commit hashMatches).1, [.commit hashMatches (transfer.commit hashMatches).2])
  | .cancel => (transfer.cancel, [.cancel])

def run (total quota : UInt64) (calls : List TransferCall) :
    FileTransfer × List TransferEvent :=
  Runs.run step (offer total quota) calls

def isTaken : TransferEvent → Bool
  | .receive _ taken => taken
  | _ => false

def bytesOf : TransferEvent → Nat
  | .receive len true => len.toNat
  | _ => 0

-- The bytes of all calls of `receive` that returned true.
def taken (log : List TransferEvent) : Nat := (log.map bytesOf).sum

-- A call of `accept` returned true before any call of `receive` did.
def Consented (log : List TransferEvent) : Prop :=
  ∃ before after, log = before ++ TransferEvent.accept true :: after ∧
    ∀ event ∈ before, isTaken event = false

-- What a completed transfer went through.
structure Completed (total quota : UInt64) (log : List TransferEvent) : Prop where
  consented : Consented log
  within : total ≤ quota
  committed : .commit true true ∈ log
  verified : .commit false true ∉ log
  bytes : taken log = total.toNat

structure Exact (total quota : UInt64) (log : List TransferEvent) (transfer : FileTransfer) :
    Prop where
  bounded : transfer.received ≤ total
  completed : transfer.phase = .complete → Completed total quota log
  final : transfer.phase = .complete ∨ transfer.phase = .cancelled →
    ∀ later, (Runs.run step transfer later).1 = transfer

-- Every state that the calls lead through is as it should be.
def ExactRun (total quota : UInt64) (calls : List TransferCall) : Prop :=
  ∀ made, made <+: calls → Exact total quota (run total quota made).2 (run total quota made).1

-- While bytes flow into a transfer of the largest size, the sum of the lengths stays below 2^64.
def Unsaturated (transfer : FileTransfer) : TransferCall → Prop
  | .receive len => transfer.phase = .accepted → transfer.total = 0xFFFFFFFFFFFFFFFF →
      transfer.received.toNat + len.toNat < 2 ^ 64
  | _ => True

instance decidableUnsaturated (transfer : FileTransfer) (call : TransferCall) :
    Decidable (Unsaturated transfer call) :=
  match call with
  | .receive _ => inferInstanceAs (Decidable (_ → _))
  | .accept | .commit _ | .cancel => .isTrue trivial

section Steps

variable {transfer : FileTransfer} {total quota : UInt64} {log : List TransferEvent}

theorem toNat_saturatingAdd (a b : UInt64) :
    (saturatingAdd a b).toNat = min (a.toNat + b.toNat) 0xFFFFFFFFFFFFFFFF := by
  rw [saturatingAdd, UInt64.toNat_ofNat_of_lt']
  exact Nat.lt_of_le_of_lt (Nat.min_le_right _ _) (by decide)

@[simp] theorem taken_concat (log : List TransferEvent) (event : TransferEvent) :
    taken (log ++ [event]) = taken log + bytesOf event := by
  simp [taken]

theorem Consented.concat (consented : Consented log) (event : TransferEvent) :
    Consented (log ++ [event]) := by
  obtain ⟨before, after, rfl, free⟩ := consented
  exact ⟨before, after ++ [event], by simp, free⟩

-- What a call can do.
inductive Moves (transfer : FileTransfer) : TransferCall → FileTransfer → TransferEvent → Prop where
  | consent (offered : transfer.phase = .offered) :
      Moves transfer .accept { transfer with phase := .accepted } (.accept true)
  | take (len : UInt64) (accepted : transfer.phase = .accepted)
      (fits : saturatingAdd transfer.received len ≤ transfer.total) :
      Moves transfer (.receive len) { transfer with received := saturatingAdd transfer.received len }
        (.receive len true)
  | complete (accepted : transfer.phase = .accepted) (whole : transfer.received = transfer.total) :
      Moves transfer (.commit true) { transfer with phase := .complete } (.commit true true)
  | abandon (call : TransferCall) (event : TransferEvent)
      (open_ : transfer.phase = .offered ∨ transfer.phase = .accepted)
      (silent : event ∉ [.accept true, .commit true true, .commit false true])
      (free : isTaken event = false) :
      Moves transfer call { transfer with phase := .cancelled } event
  | stay (call : TransferCall) (event : TransferEvent)
      (silent : event ∉ [.accept true, .commit true true, .commit false true])
      (free : isTaken event = false) : Moves transfer call transfer event

theorem step_moves (transfer : FileTransfer) (call : TransferCall) :
    ∃ event, (transfer.step call).2 = [event] ∧
      Moves transfer call (transfer.step call).1 event := by
  cases call with
  | accept =>
    refine ⟨_, rfl, ?_⟩
    by_cases offered : transfer.phase = .offered
    · simp only [step, accept, if_pos offered]
      exact .consent offered
    · simp only [step, accept, if_neg offered]
      exact .stay _ _ (by decide) rfl
  | receive len =>
    refine ⟨_, rfl, ?_⟩
    by_cases accepted : transfer.phase = .accepted
    · by_cases over_ : saturatingAdd transfer.received len > transfer.total
      · simp only [step, receive, ne_eq, accepted, not_true, if_false, if_pos over_]
        exact .abandon _ _ (.inr accepted) (by simp) rfl
      · simp only [step, receive, ne_eq, accepted, not_true, if_false, if_neg over_]
        exact accepted ▸ .take len accepted (UInt64.not_lt.mp over_)
    · simp only [step, receive, ne_eq, accepted, not_false_iff, if_true]
      exact .stay _ _ (by simp) rfl
  | commit hashMatches =>
    refine ⟨_, rfl, ?_⟩
    by_cases whole : transfer.phase = .accepted ∧ transfer.received = transfer.total ∧ hashMatches
    · simp only [step, commit, if_pos whole]
      obtain ⟨accepted, equal, rfl⟩ := whole
      exact .complete accepted equal
    · by_cases accepted : transfer.phase = .accepted
      · simp only [step, commit, if_neg whole, if_pos accepted]
        exact .abandon _ _ (.inr accepted) (by cases hashMatches <;> decide) rfl
      · simp only [step, commit, if_neg whole, if_neg accepted]
        exact .stay _ _ (by cases hashMatches <;> decide) rfl
  | cancel =>
    refine ⟨_, rfl, ?_⟩
    by_cases open_ : transfer.phase = .offered ∨ transfer.phase = .accepted
    · simp only [step, cancel, if_pos open_]
      exact .abandon _ _ open_ (by decide) rfl
    · simp only [step, cancel, if_neg open_]
      exact .stay _ _ (by decide) rfl

-- What is known of a transfer and the calls so far.
structure Known (total quota : UInt64) (log : List TransferEvent) (transfer : FileTransfer) :
    Prop where
  size : transfer.total = total
  bounded : transfer.received ≤ total
  within : transfer.phase ≠ .cancelled → total ≤ quota
  verified : .commit false true ∉ log
  unasked : transfer.phase = .offered → ∀ event ∈ log, isTaken event = false
  consented : transfer.phase = .accepted ∨ transfer.phase = .complete → Consented log
  whole : transfer.phase = .complete → transfer.received = total ∧ .commit true true ∈ log

-- The bytes that were taken are the ones that are counted.
def Counted (log : List TransferEvent) (transfer : FileTransfer) : Prop :=
  transfer.phase ≠ .cancelled → taken log = transfer.received.toNat

theorem known_offer (total quota : UInt64) : Known total quota [] (offer total quota) where
  size := rfl
  bounded := UInt64.le_iff_toNat_le.mpr (Nat.zero_le _)
  within := by
    intro open_
    by_contra over_
    exact open_ (if_pos (UInt64.not_le.mp over_))
  verified := List.not_mem_nil
  unasked := by simp
  consented := by
    rw [offer]
    split_ifs <;> simp
  whole := by
    rw [offer]
    split_ifs <;> simp

theorem Known.moves {call : TransferCall} {next : FileTransfer} {event : TransferEvent}
    (known : Known total quota log transfer) (moves : Moves transfer call next event) :
    Known total quota (log ++ [event]) next := by
  have verified (other : event ≠ .commit false true) : .commit false true ∉ log ++ [event] := by
    simp [known.verified, Ne.symm other]
  cases moves with
  | consent offered =>
    exact {
      size := known.size
      bounded := known.bounded
      within := fun _ => known.within (by simp [offered])
      verified := verified (by simp)
      unasked := fun again => nomatch again
      consented := fun _ => ⟨log, [], rfl, known.unasked offered⟩
      whole := fun complete => nomatch complete }
  | take len accepted fits =>
    exact {
      size := known.size
      bounded := known.size ▸ fits
      within := known.within
      verified := verified (by simp)
      unasked := fun offered => by simp [accepted] at offered
      consented := fun phase => (known.consented phase).concat _
      whole := fun complete => by simp [accepted] at complete }
  | complete accepted whole =>
    exact {
      size := known.size
      bounded := known.bounded
      within := fun _ => known.within (by simp [accepted])
      verified := verified (by simp)
      unasked := fun offered => nomatch offered
      consented := fun _ => (known.consented (.inl accepted)).concat _
      whole := fun _ => ⟨whole.trans known.size, by simp⟩ }
  | abandon _ _ open_ silent free =>
    exact {
      size := known.size
      bounded := known.bounded
      within := fun cancelled => absurd rfl cancelled
      verified := verified fun same => silent (by simp [same])
      unasked := fun offered => nomatch offered
      consented := fun phase => by simp at phase
      whole := fun complete => nomatch complete }
  | stay _ _ silent free =>
    exact {
      size := known.size
      bounded := known.bounded
      within := known.within
      verified := verified fun same => silent (by simp [same])
      unasked := fun offered other member => by
        rcases List.mem_append.mp member with old | new
        · exact known.unasked offered other old
        · exact List.mem_singleton.mp new ▸ free
      consented := fun phase => (known.consented phase).concat _
      whole := fun complete =>
        ⟨(known.whole complete).1, List.mem_append_left _ (known.whole complete).2⟩ }

theorem Counted.moves {call : TransferCall} {next : FileTransfer} {event : TransferEvent}
    (counted : Counted log transfer) (unsaturated : Unsaturated transfer call)
    (moves : Moves transfer call next event) : Counted (log ++ [event]) next := by
  have silent (open_ : transfer.phase ≠ .cancelled) (nothing : bytesOf event = 0) :
      taken (log ++ [event]) = transfer.received.toNat := by
    rw [taken_concat, nothing, counted open_, Nat.add_zero]
  cases moves with
  | consent offered => exact fun _ => silent (by simp [offered]) rfl
  | take len accepted fits =>
    intro _
    have bytes := UInt64.le_iff_toNat_le.mp fits
    have sum := toNat_saturatingAdd transfer.received len
    have unsaturated := unsaturated accepted
    have small : transfer.received.toNat + len.toNat < 2 ^ 64 := by
      by_cases largest : transfer.total = 0xFFFFFFFFFFFFFFFF
      · exact unsaturated largest
      · have below := transfer.total.toNat_lt
        have other : transfer.total.toNat ≠ 0xFFFFFFFFFFFFFFFF :=
          fun same => largest (UInt64.toNat_inj.mp same)
        omega
    rw [taken_concat, counted (by simp [accepted]), sum]
    change _ + len.toNat = _
    omega
  | complete accepted whole => exact fun _ => silent (by simp [accepted]) rfl
  | abandon => exact fun cancelled => absurd rfl cancelled
  | stay _ _ _ free =>
    refine fun open_ => silent open_ ?_
    cases event with
    | receive len taken =>
      obtain rfl : taken = false := free
      rfl
    | accept | commit | cancel => rfl

theorem step_closed (closed : transfer.phase = .complete ∨ transfer.phase = .cancelled)
    (call : TransferCall) : (transfer.step call).1 = transfer := by
  obtain ⟨event, -, moves⟩ := transfer.step_moves call
  generalize (transfer.step call).1 = next at moves
  cases moves with
  | consent offered => simp [offered] at closed
  | take _ accepted => simp [accepted] at closed
  | complete accepted => simp [accepted] at closed
  | abandon _ _ open_ => rcases open_ with offered | accepted <;> simp_all
  | stay => rfl

theorem run_closed (closed : transfer.phase = .complete ∨ transfer.phase = .cancelled)
    (later : List TransferCall) : (Runs.run step transfer later).1 = transfer := by
  induction later with
  | nil => rfl
  | cons call later ih =>
    change (Runs.run step (transfer.step call).1 later).1 = transfer
    rw [step_closed closed, ih]

theorem Known.exact (known : Known total quota log transfer) (counted : Counted log transfer) :
    Exact total quota log transfer where
  bounded := known.bounded
  completed := by
    intro complete
    obtain ⟨whole, committed⟩ := known.whole complete
    have open_ : transfer.phase ≠ .cancelled := by simp [complete]
    exact {
      consented := known.consented (.inr complete)
      within := known.within open_
      committed := committed
      verified := known.verified
      bytes := by rw [counted open_, whole] }
  final := run_closed

theorem exactRun_of_unsaturated {calls : List TransferCall}
    (unsaturated : Runs.Along step (fun _ => Unsaturated) [] (offer total quota) calls) :
    ExactRun total quota calls := by
  intro made front
  let invariant (log : List TransferEvent) (transfer : FileTransfer) : Prop :=
    Known total quota log transfer ∧ Counted log transfer
  have preserved : ∀ log transfer call, invariant log transfer → Unsaturated transfer call →
      invariant (log ++ (step transfer call).2) (step transfer call).1 := by
    rintro log transfer call ⟨known, counted⟩ within
    obtain ⟨event, emitted, moves⟩ := transfer.step_moves call
    rw [emitted]
    exact ⟨known.moves moves, counted.moves within moves⟩
  have initial : invariant [] (offer total quota) := ⟨known_offer total quota, fun _ => rfl⟩
  obtain ⟨known, counted⟩ := Runs.run_invariant step _ invariant preserved [] _ made initial
    (unsaturated.of_prefix front)
  exact known.exact counted

end Steps

-- A chunk of one byte behind 2^64 - 1 bytes.
def oneTooMany : List TransferCall :=
  [.accept, .receive 0xFFFFFFFFFFFFFFFF, .receive 1, .commit true]

theorem oneTooMany_completes :
    (run 0xFFFFFFFFFFFFFFFF 0xFFFFFFFFFFFFFFFF oneTooMany).1.phase = .complete ∧
      taken (run 0xFFFFFFFFFFFFFFFF 0xFFFFFFFFFFFFFFFF oneTooMany).2 = 2 ^ 64 := by
  decide +kernel

theorem not_exactRun_oneTooMany :
    ¬ ExactRun 0xFFFFFFFFFFFFFFFF 0xFFFFFFFFFFFFFFFF oneTooMany := by
  intro exact_
  obtain ⟨complete, bytes⟩ := oneTooMany_completes
  have same := ((exact_ oneTooMany List.prefix_rfl).completed complete).bytes
  exact absurd (bytes.symm.trans same) (by decide)

-- Only a transfer of the largest size within the largest quota can saturate.
theorem unsaturated_of_size {total quota : UInt64}
    (size : ¬(total = 0xFFFFFFFFFFFFFFFF ∧ quota = 0xFFFFFFFFFFFFFFFF))
    (calls : List TransferCall) :
    Runs.Along step (fun _ => Unsaturated) [] (offer total quota) calls := by
  have all : Runs.Along step (fun _ _ _ => True) [] (offer total quota) calls :=
    Runs.along_of_forall (fun _ _ _ _ => trivial) [] _
  refine Runs.along_of_invariant step _ (Known total quota) ?_ ?_ [] _ calls
    (known_offer total quota) all
  · intro log transfer call known _
    obtain ⟨event, emitted, moves⟩ := transfer.step_moves call
    rw [emitted]
    exact known.moves moves
  · intro log transfer call known _
    cases call with
    | receive len =>
      intro accepted largest
      have within := known.within (by simp [accepted])
      rw [known.size] at largest
      subst largest
      have below := quota.toNat_lt
      have above := UInt64.le_iff_toNat_le.mp within
      refine absurd ⟨rfl, UInt64.toNat_inj.mp ?_⟩ size
      change 0xFFFFFFFFFFFFFFFF ≤ quota.toNat at above
      change quota.toNat = 0xFFFFFFFFFFFFFFFF
      omega
    | accept | commit | cancel => trivial

/-- A run in which no chunk saturates the count is exact; all runs of a transfer are, unless its
size and its quota are the largest number. -/
theorem exactRun_iff (total quota : UInt64) :
    (∀ calls, Runs.Along step (fun _ => Unsaturated) [] (offer total quota) calls →
        ExactRun total quota calls) ∧
      ((∀ calls, ExactRun total quota calls) ↔
        ¬(total = 0xFFFFFFFFFFFFFFFF ∧ quota = 0xFFFFFFFFFFFFFFFF)) := by
  refine ⟨fun calls => exactRun_of_unsaturated, ?_, ?_⟩
  · rintro exact_ ⟨rfl, rfl⟩
    exact not_exactRun_oneTooMany (exact_ oneTooMany)
  · exact fun size calls => exactRun_of_unsaturated (unsaturated_of_size size calls)

theorem exactRun_iff_movie :
    ExactRun 100 1000 [.accept, .receive 60, .receive 40, .commit true, .receive 1] :=
  (exactRun_iff 100 1000).1 _ (by decide)

end FileTransfer

end BetterParsec
