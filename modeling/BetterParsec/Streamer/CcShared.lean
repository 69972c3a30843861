import BetterParsec.Library.Runs

set_option autoImplicit false
set_option linter.all false

/-!
# The shared state of the congestion control

`CcShared` of `streamer/src/cc.rs`, between the sender loops, the RTCP readers and the
task that applies the bitrate.  Any number of threads make its calls; every access to an
atomic word is a step, and the steps of all threads come in one order.
-/

namespace BetterParsec

-- `u64::MAX`.
def lossMailboxEmpty : UInt64 := 0xFFFFFFFFFFFFFFFF

def pack (generation value : UInt32) : UInt64 := generation.toUInt64 <<< 32 ||| value.toUInt64

def unpack (packed : UInt64) : UInt32 × UInt32 := ((packed >>> 32).toUInt32, packed.toUInt32)

theorem toNat_pack (generation value : UInt32) :
    (pack generation value).toNat = generation.toNat * 2 ^ 32 + value.toNat := by
  have first := generation.toNat_lt
  have second := value.toNat_lt
  have small : generation.toNat * 2 ^ 32 < 2 ^ 64 := by omega
  rw [pack, UInt64.toNat_or, UInt64.toNat_shiftLeft, UInt32.toNat_toUInt64, UInt32.toNat_toUInt64]
  change (generation.toNat <<< 32) % 2 ^ 64 ||| _ = _
  rw [Nat.shiftLeft_eq, Nat.mod_eq_of_lt small, ← Nat.shiftLeft_eq,
    Nat.shiftLeft_add_eq_or_of_lt second]

@[simp] theorem unpack_pack (generation value : UInt32) :
    unpack (pack generation value) = (generation, value) := by
  have first := generation.toNat_lt
  have second := value.toNat_lt
  have whole := toNat_pack generation value
  rw [unpack, Prod.mk.injEq]
  constructor
  · apply UInt32.toNat_inj.mp
    rw [UInt64.toNat_toUInt32, UInt64.toNat_shiftRight]
    change ((pack generation value).toNat >>> 32) % 2 ^ 32 = _
    rw [Nat.shiftRight_eq_div_pow]
    omega
  · apply UInt32.toNat_inj.mp
    rw [UInt64.toNat_toUInt32]
    omega

structure CcShared where
  generation : UInt32
  targetPacked : UInt64
  lossPacked : UInt64
  deriving DecidableEq

namespace CcShared

def new : CcShared := ⟨0, pack 0 0, lossMailboxEmpty⟩

inductive Call where
  | beginGeneration
  | publishTargetFor (generation kbps : UInt32)
  | targetKbps
  | postLossFor (generation : UInt32) (fractionLost : UInt8)
  | takeLossFor (generation : UInt32)
  deriving DecidableEq

-- The access a call makes next.
inductive Point where
  | addGeneration
  | resetTarget (generation : UInt32)
  | emptyLoss (generation : UInt32)
  | checkPublish (generation kbps : UInt32)
  | storeTarget (generation kbps : UInt32)
  | loadGeneration
  | loadTarget (current : UInt32)
  | checkPost (generation : UInt32) (fractionLost : UInt8)
  | storeLoss (generation : UInt32) (fractionLost : UInt8)
  | loadLoss (generation : UInt32)
  | exchangeLoss (generation : UInt32) (current : UInt64)
  deriving DecidableEq

def Call.start : Call → Point
  | .beginGeneration => .addGeneration
  | .publishTargetFor generation kbps => .checkPublish generation kbps
  | .targetKbps => .loadGeneration
  | .postLossFor generation fractionLost => .checkPost generation fractionLost
  | .takeLossFor generation => .loadLoss generation

-- What is observed: calls, the writes to the words, and what is returned.  A fraction of
-- `take_loss_for` is in 256ths.
inductive Entry where
  | called (thread : Nat) (call : Call)
  | added (thread : Nat)
  | stored (thread : Nat) (generation kbps : UInt32)
  | posted (thread : Nat) (generation : UInt32) (fractionLost : UInt8)
  | emptied (thread : Nat)
  | began (thread : Nat) (generation : UInt32)
  | target (thread : Nat) (kbps : UInt32)
  | took (thread : Nat) (generation : UInt32) (fraction : Option UInt32)
  deriving DecidableEq

-- `compare_exchange_weak` may fail where the word is the expected one.
def access (shared : CcShared) (thread : Nat) (spurious : Bool) :
    Point → CcShared × Option Point × List Entry
  | .addGeneration =>
    let generation := shared.generation + 1
    ({ shared with generation := generation }, some (.resetTarget generation), [.added thread])
  | .resetTarget generation =>
    ({ shared with targetPacked := pack generation 0 }, some (.emptyLoss generation),
      [.stored thread generation 0])
  | .emptyLoss generation =>
    ({ shared with lossPacked := lossMailboxEmpty }, none,
      [.emptied thread, .began thread generation])
  | .checkPublish generation kbps =>
    if shared.generation ≠ generation then (shared, none, [])
    else (shared, some (.storeTarget generation kbps), [])
  | .storeTarget generation kbps =>
    ({ shared with targetPacked := pack generation kbps }, none, [.stored thread generation kbps])
  | .loadGeneration => (shared, some (.loadTarget shared.generation), [])
  | .loadTarget current =>
    let published := unpack shared.targetPacked
    (shared, none, [.target thread (if published.1 = current then published.2 else 0)])
  | .checkPost generation fractionLost =>
    if shared.generation ≠ generation then (shared, none, [])
    else (shared, some (.storeLoss generation fractionLost), [])
  | .storeLoss generation fractionLost =>
    ({ shared with lossPacked := pack generation fractionLost.toUInt32 }, none,
      [.posted thread generation fractionLost])
  | .loadLoss generation =>
    let current := shared.lossPacked
    if current = lossMailboxEmpty then (shared, none, [.took thread generation none])
    else if (unpack current).1 ≠ generation then (shared, none, [.took thread generation none])
    else (shared, some (.exchangeLoss generation current), [])
  | .exchangeLoss generation current =>
    if shared.lossPacked = current ∧ spurious = false then
      ({ shared with lossPacked := lossMailboxEmpty }, none,
        [.took thread generation (some (unpack current).2)])
    else (shared, some (.loadLoss generation), [])

structure System where
  shared : CcShared
  threads : Nat → Option Point

def System.initial : System := ⟨.new, fun _ => none⟩

inductive Action where
  | call (thread : Nat) (call : Call)
  | access (thread : Nat) (spurious : Bool)
  deriving DecidableEq

-- A thread makes one call at a time.
def step (s : System) : Action → System × List Entry
  | .call thread call =>
    match s.threads thread with
    | some _ => (s, [])
    | none =>
      ({ s with threads := Function.update s.threads thread (some call.start) },
        [.called thread call])
  | .access thread spurious =>
    match s.threads thread with
    | none => (s, [])
    | some point =>
      let next := access s.shared thread spurious point
      ({ shared := next.1, threads := Function.update s.threads thread next.2.1 }, next.2.2)

section Log

-- The generations that were started.
def additions (log : List Entry) : Nat :=
  log.countP fun
    | .added _ => true
    | _ => false

-- How many of them before the last call of the thread, and how many at all.
def follow (thread : Nat) (counted : Nat × Nat) : Entry → Nat × Nat
  | .called other _ => if other = thread then (counted.2, counted.2) else counted
  | .added _ => (counted.1, counted.2 + 1)
  | _ => counted

def additionsBefore (thread : Nat) (log : List Entry) : Nat :=
  (log.foldl (follow thread) (0, 0)).1

-- The last write to the word of the target.
def lastTarget (log : List Entry) : Option (UInt32 × UInt32) :=
  log.foldl (fun last entry =>
    match entry with
    | .stored _ generation kbps => some (generation, kbps)
    | _ => last) none

-- The report in the mailbox: what was posted last and neither taken nor discarded.
def unread (log : List Entry) : Option (UInt32 × UInt8) :=
  log.foldl (fun last entry =>
    match entry with
    | .posted _ generation fractionLost => some (generation, fractionLost)
    | .emptied _ | .took _ _ (some _) => none
    | _ => last) none

variable (log more : List Entry)

@[simp] theorem additions_append : additions (log ++ more) = additions log + additions more := by
  rw [additions, List.countP_append]
  rfl

@[simp] theorem lastTarget_append_singleton (entry : Entry) :
    lastTarget (log ++ [entry]) =
      match entry with
      | .stored _ generation kbps => some (generation, kbps)
      | _ => lastTarget log := by
  rw [lastTarget, List.foldl_append]
  rfl

@[simp] theorem unread_append_singleton (entry : Entry) :
    unread (log ++ [entry]) =
      match entry with
      | .posted _ generation fractionLost => some (generation, fractionLost)
      | .emptied _ | .took _ _ (some _) => none
      | _ => unread log := by
  rw [unread, List.foldl_append]
  rfl

theorem foldl_follow (thread : Nat) :
    log.foldl (follow thread) (0, 0) = (additionsBefore thread log, additions log) := by
  induction log using List.reverseRecOn with
  | nil => rfl
  | append_singleton rest entry ih =>
    have counted : additionsBefore thread (rest ++ [entry]) =
        (follow thread (additionsBefore thread rest, additions rest) entry).1 := by
      rw [additionsBefore, List.foldl_append, ih]
      rfl
    rw [counted, List.foldl_append, ih, additions_append]
    cases entry with
    | called other call =>
      by_cases same : other = thread <;> simp [follow, same, additions]
    | _ => simp [follow, additions]

theorem additionsBefore_append_singleton (thread : Nat) (entry : Entry) :
    additionsBefore thread (log ++ [entry]) =
      match entry with
      | .called other _ => if other = thread then additions log else additionsBefore thread log
      | _ => additionsBefore thread log := by
  rw [additionsBefore, List.foldl_append, foldl_follow]
  cases entry with
  | called other call => by_cases same : other = thread <;> simp [follow, same]
  | _ => rfl

variable {log more}

theorem additionsBefore_append {thread : Nat} (quiet : ∀ call, .called thread call ∉ more) :
    additionsBefore thread (log ++ more) = additionsBefore thread log := by
  induction more using List.reverseRecOn with
  | nil => rw [List.append_nil]
  | append_singleton rest entry ih =>
    rw [← List.append_assoc, additionsBefore_append_singleton]
    have before := ih fun call member => quiet call (List.mem_append_left _ member)
    cases entry with
    | called other call =>
      have differs : other ≠ thread := by
        rintro rfl
        exact quiet call (List.mem_append_right _ (List.mem_singleton.mpr rfl))
      simp only [if_neg differs, before]
    | _ => exact before

theorem additionsBefore_le (thread : Nat) (log : List Entry) :
    additionsBefore thread log ≤ additions log := by
  induction log using List.reverseRecOn with
  | nil => rfl
  | append_singleton rest entry ih =>
    rw [additionsBefore_append_singleton, additions_append]
    cases entry with
    | called other call =>
      dsimp only
      split_ifs <;> omega
    | _ => exact le_trans ih (Nat.le_add_right _ _)

end Log

-- The generation was the current one at a moment after `first` and up to `now` additions.
def Current (first now : Nat) (generation : UInt32) : Prop :=
  ∃ number, first ≤ number ∧ number ≤ now ∧ generation = UInt32.ofNat number

theorem Current.later {first now now' : Nat} {generation : UInt32}
    (current : Current first now generation) (le : now ≤ now') : Current first now' generation := by
  obtain ⟨number, low, high, same⟩ := current
  exact ⟨number, low, high.trans le, same⟩

-- What an entry says about the entries before it.
def Good (before : List Entry) : Entry → Prop
  | .stored thread generation _ | .posted thread generation _ | .began thread generation =>
    Current (additionsBefore thread before) (additions before) generation
  | .target thread kbps => kbps = 0 ∨ ∃ generation, lastTarget before = some (generation, kbps) ∧
      Current (additionsBefore thread before) (additions before) generation
  | .took _ generation (some fraction) =>
    ∃ fractionLost, unread before = some (generation, fractionLost) ∧
      fraction = fractionLost.toUInt32
  | .took _ generation none => ∀ fractionLost, unread before ≠ some (generation, fractionLost)
  | .called _ _ | .added _ | .emptied _ => True

-- What a thread has found out before its next access.
def Point.Timely (first now : Nat) : Point → Prop
  | .resetTarget generation | .emptyLoss generation | .storeTarget generation _
  | .loadTarget generation | .storeLoss generation _ => Current first now generation
  | .exchangeLoss generation current =>
    current ≠ lossMailboxEmpty ∧ (unpack current).1 = generation
  | .addGeneration | .checkPublish _ _ | .loadGeneration | .checkPost _ _ | .loadLoss _ => True

theorem Point.Timely.later {first now now' : Nat} {point : Point} (timely : point.Timely first now)
    (le : now ≤ now') : point.Timely first now' := by
  cases point with
  | resetTarget | emptyLoss | storeTarget | loadTarget | storeLoss => exact Current.later timely le
  | _ => exact timely

-- The word of the mailbox.
def mailbox : Option (UInt32 × UInt8) → UInt64
  | none => lossMailboxEmpty
  | some report => pack report.1 report.2.toUInt32

theorem pack_ne_empty (generation : UInt32) (fractionLost : UInt8) :
    pack generation fractionLost.toUInt32 ≠ lossMailboxEmpty := by
  intro same
  have low := congrArg (fun word => (unpack word).2.toNat) same
  simp only [unpack_pack, UInt8.toNat_toUInt32] at low
  have small := fractionLost.toNat_lt
  have all : (unpack lossMailboxEmpty).2.toNat = 4294967295 := by decide
  omega

structure Words (log : List Entry) (shared : CcShared) : Prop where
  counted : shared.generation = UInt32.ofNat (additions log)
  target : unpack shared.targetPacked = (lastTarget log).getD (0, 0)
  loss : shared.lossPacked = mailbox (unread log)

section Access

variable {log : List Entry} {shared : CcShared} {thread : Nat}

theorem Words.current (words : Words log shared) :
    Current (additionsBefore thread log) (additions log) shared.generation :=
  ⟨additions log, additionsBefore_le thread log, le_rfl, words.counted⟩

-- What the mailbox says of the report that is unread.
theorem Words.unread_eq (words : Words log shared) (full : shared.lossPacked ≠ lossMailboxEmpty) :
    ∃ generation fractionLost, unread log = some (generation, fractionLost) ∧
      unpack shared.lossPacked = (generation, fractionLost.toUInt32) := by
  cases found : unread log with
  | none =>
    rw [words.loss, found] at full
    exact absurd rfl full
  | some report =>
    refine ⟨report.1, report.2, rfl, ?_⟩
    rw [words.loss, found]
    exact unpack_pack _ _

structure Kept (log : List Entry) (thread : Nat) (next : CcShared × Option Point × List Entry) :
    Prop where
  words : Words (log ++ next.2.2) next.1
  timely : ∀ point, next.2.1 = some point → point.Timely
    (additionsBefore thread (log ++ next.2.2)) (additions (log ++ next.2.2))
  good : Runs.EmissionsAfter Good log next.2.2
  quiet : ∀ other call, .called other call ∉ next.2.2

theorem Words.silent (words : Words log shared) {next : Option Point}
    (timely : ∀ point, next = some point →
      point.Timely (additionsBefore thread log) (additions log)) :
    Kept log thread (shared, next, []) := by
  constructor
  · rwa [List.append_nil]
  · rwa [List.append_nil]
  · trivial
  · exact fun _ _ => List.not_mem_nil

theorem Words.last {next : CcShared} {entry : Entry} (words : Words (log ++ [entry]) next)
    (good : Good log entry) (quiet : ∀ other call, entry ≠ .called other call) :
    Kept log thread (next, none, [entry]) := by
  refine ⟨words, ?_, ⟨good, trivial⟩, ?_⟩
  · intro point impossible
    cases impossible
  · intro other call member
    exact quiet other call (List.mem_singleton.mp member).symm

theorem access_kept (words : Words log shared) (spurious : Bool) {point : Point}
    (timely : point.Timely (additionsBefore thread log) (additions log)) :
    Kept log thread (access shared thread spurious point) := by
  obtain ⟨counted, target, loss⟩ := words
  cases point with
  | addGeneration =>
    have next : shared.generation + 1 = UInt32.ofNat (additions log + 1) := by
      rw [counted, UInt32.ofNat_add]
      rfl
    refine ⟨⟨?_, ?_, ?_⟩, ?_, ⟨trivial, trivial⟩, ?_⟩
    · simpa [access, additions] using next
    · simpa [access] using target
    · simpa [access] using loss
    · rintro point ⟨⟩
      refine ⟨additions log + 1, ?_, ?_, next⟩
      · have := additionsBefore_le thread log
        simp only [access, additionsBefore_append_singleton]
        omega
      · simp [access, additions]
    · simp [access]
  | resetTarget generation =>
    refine ⟨⟨?_, ?_, ?_⟩, ?_, ⟨timely, trivial⟩, ?_⟩
    · simpa [access, additions] using counted
    · simp [access]
    · simpa [access] using loss
    · rintro point ⟨⟩
      simp only [access, additionsBefore_append_singleton]
      exact timely.later (by simp)
    · simp [access]
  | emptyLoss generation =>
    refine ⟨⟨?_, ?_, ?_⟩, ?_, ?_, ?_⟩
    · simpa [access, additions] using counted
    · rw [access, List.append_cons, lastTarget_append_singleton, lastTarget_append_singleton]
      exact target
    · rw [access, List.append_cons, unread_append_singleton, unread_append_singleton]
      rfl
    · rintro point ⟨⟩
    · refine ⟨trivial, ?_, trivial⟩
      rw [Good, additionsBefore_append_singleton]
      exact timely.later (by simp)
    · simp [access]
  | checkPublish generation kbps =>
    rw [access]
    split_ifs with superseded
    · exact Words.silent ⟨counted, target, loss⟩ (by rintro point ⟨⟩)
    · refine Words.silent ⟨counted, target, loss⟩ ?_
      rintro point ⟨⟩
      rw [← not_not.mp superseded]
      exact Words.current ⟨counted, target, loss⟩
  | storeTarget generation kbps =>
    refine Words.last ⟨?_, ?_, ?_⟩ timely (by simp)
    · simpa [additions] using counted
    · simp
    · simpa using loss
  | loadGeneration =>
    refine Words.silent ⟨counted, target, loss⟩ ?_
    rintro point ⟨⟩
    exact Words.current ⟨counted, target, loss⟩
  | loadTarget current =>
    refine Words.last ⟨?_, ?_, ?_⟩ ?_ (by simp)
    · simpa [additions] using counted
    · simpa using target
    · simpa using loss
    · rw [Good, target]
      by_cases same : ((lastTarget log).getD (0, 0)).1 = current
      · rw [if_pos same]
        cases found : lastTarget log with
        | none => exact .inl rfl
        | some written =>
          refine .inr ⟨written.1, rfl, ?_⟩
          rw [found] at same
          have named : written.1 = current := same
          rw [named]
          exact timely
      · exact .inl (if_neg same)
  | checkPost generation fractionLost =>
    rw [access]
    split_ifs with superseded
    · exact Words.silent ⟨counted, target, loss⟩ (by rintro point ⟨⟩)
    · refine Words.silent ⟨counted, target, loss⟩ ?_
      rintro point ⟨⟩
      rw [← not_not.mp superseded]
      exact Words.current ⟨counted, target, loss⟩
  | storeLoss generation fractionLost =>
    refine Words.last ⟨?_, ?_, ?_⟩ timely (by simp)
    · simpa [additions] using counted
    · simpa using target
    · simp [mailbox]
  | loadLoss generation =>
    have held : Words log shared := ⟨counted, target, loss⟩
    simp only [access]
    split_ifs with empty other
    · refine Words.last ⟨?_, ?_, ?_⟩ ?_ (by simp)
      · simpa [additions] using counted
      · simpa using target
      · simpa using loss
      · intro fractionLost found
        rw [loss, found] at empty
        exact pack_ne_empty generation fractionLost empty
    · refine Words.last ⟨?_, ?_, ?_⟩ ?_ (by simp)
      · simpa [additions] using counted
      · simpa using target
      · simpa using loss
      · intro fractionLost found
        rw [loss, found] at other
        exact other (congrArg Prod.fst (unpack_pack _ _))
    · refine held.silent ?_
      rintro point ⟨⟩
      exact ⟨empty, not_not.mp other⟩
  | exchangeLoss generation current =>
    have held : Words log shared := ⟨counted, target, loss⟩
    rw [access]
    split_ifs with exchanged
    · obtain ⟨full, named⟩ := timely
      rw [← exchanged.1] at full named ⊢
      obtain ⟨owner, fractionLost, found, whole⟩ := held.unread_eq full
      rw [whole] at named ⊢
      refine Words.last ⟨?_, ?_, ?_⟩ ?_ (by simp)
      · simpa [additions] using counted
      · simpa using target
      · simp [mailbox]
      · exact ⟨fractionLost, found.trans (by rw [← named]), rfl⟩
    · exact held.silent (by rintro point ⟨⟩; trivial)

end Access

structure Sound (log : List Entry) (s : System) : Prop where
  words : Words log s.shared
  threads : ∀ thread point, s.threads thread = some point →
    point.Timely (additionsBefore thread log) (additions log)
  good : Runs.EmissionsAfter Good [] log

theorem initial_sound : Sound [] .initial := by
  refine ⟨⟨rfl, unpack_pack 0 0, rfl⟩, ?_, trivial⟩
  rintro thread point ⟨⟩

theorem step_sound (log : List Entry) (s : System) (action : Action) (sound : Sound log s) :
    Sound (log ++ (step s action).2) (step s action).1 := by
  have quiet : Sound (log ++ []) s := by rwa [List.append_nil]
  cases action with
  | call thread call =>
    cases busy : s.threads thread with
    | some point => simpa only [step, busy] using quiet
    | none =>
      simp only [step, busy]
      refine ⟨⟨?_, ?_, ?_⟩, ?_, ?_⟩
      · simpa [additions] using sound.words.counted
      · simpa using sound.words.target
      · simpa using sound.words.loss
      · intro other point found
        dsimp only at found
        by_cases same : other = thread
        · subst same
          rw [Function.update_self] at found
          cases found
          cases call <;> trivial
        · rw [Function.update_of_ne same] at found
          rw [additionsBefore_append_singleton]
          simp only [if_neg (Ne.symm same)]
          exact (sound.threads other point found).later (by simp)
      · rw [Runs.emissionsAfter_append]
        exact ⟨sound.good, trivial, trivial⟩
  | access thread spurious =>
    cases found : s.threads thread with
    | none => simpa only [step, found] using quiet
    | some point =>
      simp only [step, found]
      have kept := access_kept sound.words spurious (sound.threads thread point found)
      refine ⟨kept.words, ?_, ?_⟩
      · intro other next stands
        by_cases same : other = thread
        · subst same
          exact kept.timely next (by simpa using stands)
        · rw [additionsBefore_append (kept.quiet other)]
          have before : s.threads other = some next := by
            simpa [Function.update_of_ne same] using stands
          exact (sound.threads other next before).later (by simp)
      · rw [Runs.emissionsAfter_append]
        exact ⟨sound.good, by simpa using kept.good⟩

theorem run_sound (actions : List Action) :
    Sound (Runs.run step .initial actions).2 (Runs.run step .initial actions).1 := by
  simpa using Runs.run_invariant_of_forall step Sound step_sound [] .initial actions initial_sound

theorem run_good (actions : List Action) : Runs.Emissions Good (Runs.run step .initial actions).2 :=
  (Runs.emissions_iff_after Good _).mpr (run_sound actions).good

-- A generation that was handed out has been counted.
theorem Current.toNat_le {first now : Nat} {generation : UInt32}
    (current : Current first now generation) (few : now < 2 ^ 32) :
    first ≤ generation.toNat ∧ generation.toNat ≤ now := by
  obtain ⟨number, low, high, rfl⟩ := current
  rw [UInt32.toNat_ofNat_of_lt' (by rw [UInt32.size]; omega)]
  exact ⟨low, high⟩

/-- A target that is read was published last, and no generation that had been handed out when
the call began is newer than the one it was published under. -/
theorem superseded_never_read (actions : List Action)
    (few : additions (Runs.run step .initial actions).2 < 2 ^ 32)
    {before during after : List Entry} {thread : Nat} {kbps : UInt32}
    (split : (Runs.run step .initial actions).2 =
      before ++ Entry.called thread .targetKbps :: (during ++ Entry.target thread kbps :: after))
    (same : ∀ call, .called thread call ∉ during) (active : kbps ≠ 0) :
    ∃ generation,
      lastTarget (before ++ Entry.called thread .targetKbps :: during) = some (generation, kbps) ∧
        ∀ other begun, .began other begun ∈ before → begun.toNat ≤ generation.toNat := by
  have good := run_good actions
  have whole : (Runs.run step .initial actions).2 =
      (before ++ Entry.called thread .targetKbps :: during) ++
        Entry.target thread kbps :: after := by
    rw [split]
    simp
  have total : additions (before ++ Entry.called thread .targetKbps :: during) < 2 ^ 32 := by
    rw [whole, additions_append] at few
    omega
  have start : additionsBefore thread (before ++ Entry.called thread .targetKbps :: during) =
      additions before := by
    rw [List.append_cons, additionsBefore_append same, additionsBefore_append_singleton]
    exact if_pos rfl
  rcases good _ _ _ whole with inactive | ⟨generation, published, current⟩
  · exact absurd inactive active
  refine ⟨generation, published, ?_⟩
  intro other begun handed
  obtain ⟨front, back, split'⟩ := List.append_of_mem handed
  have earlier : (Runs.run step .initial actions).2 = front ++ Entry.began other begun ::
      (back ++ Entry.called thread .targetKbps ::
        (during ++ Entry.target thread kbps :: after)) := by
    rw [split, split']
    simp
  have known : begun.toNat ≤ additions front :=
    (Current.toNat_le (good _ _ _ earlier) (by
      rw [earlier, additions_append] at few
      omega)).2
  have least : additions before ≤ generation.toNat := by
    rw [start] at current
    exact (current.toNat_le total).1
  have counted : additions front ≤ additions before := by
    rw [split', additions_append]
    omega
  omega

theorem superseded_never_read_published :
    ∃ generation, lastTarget
        ([Entry.called 0 .beginGeneration, .added 0, .stored 0 1 0, .emptied 0, .began 0 1,
          .called 1 (.publishTargetFor 1 8000), .stored 1 1 8000] ++ [Entry.called 2 .targetKbps]) =
        some (generation, 8000) ∧
      ∀ other begun, .began other begun ∈
        [Entry.called 0 .beginGeneration, .added 0, .stored 0 1 0, .emptied 0, .began 0 1,
          .called 1 (.publishTargetFor 1 8000), .stored 1 1 8000] →
        begun.toNat ≤ generation.toNat :=
  superseded_never_read
    [.call 0 .beginGeneration, .access 0 false, .access 0 false, .access 0 false,
      .call 1 (.publishTargetFor 1 8000), .access 1 false, .access 1 false,
      .call 2 .targetKbps, .access 2 false, .access 2 false]
    (by decide)
    (show _ = _ ++ Entry.called 2 .targetKbps :: ([] ++ Entry.target 2 8000 :: []) by decide)
    (by simp) (by decide)

section Mailbox

def posts (generation : UInt32) (fractionLost : UInt8) (log : List Entry) : Nat :=
  log.countP fun
    | .posted _ other fraction => other = generation ∧ fraction = fractionLost
    | _ => false

def takes (generation : UInt32) (fractionLost : UInt8) (log : List Entry) : Nat :=
  log.countP fun
    | .took _ other (some fraction) => other = generation ∧ fraction = fractionLost.toUInt32
    | _ => false

variable {generation : UInt32} {fractionLost : UInt8}

theorem posts_append_singleton (log : List Entry) (entry : Entry) :
    posts generation fractionLost (log ++ [entry]) = posts generation fractionLost log +
      match entry with
      | .posted _ other fraction => if other = generation ∧ fraction = fractionLost then 1 else 0
      | _ => 0 := by
  rw [posts, List.countP_append, List.countP_singleton, ← posts]
  cases entry <;> simp only [decide_eq_true_eq, Bool.false_eq_true, if_false]

theorem takes_append_singleton (log : List Entry) (entry : Entry) :
    takes generation fractionLost (log ++ [entry]) = takes generation fractionLost log +
      match entry with
      | .took _ other (some fraction) =>
        if other = generation ∧ fraction = fractionLost.toUInt32 then 1 else 0
      | _ => 0 := by
  rw [takes, List.countP_append, List.countP_singleton, ← takes]
  cases entry with
  | took thread other fraction =>
    cases fraction <;> simp only [decide_eq_true_eq, Bool.false_eq_true, if_false]
  | _ => rfl

-- Every post that was taken is another one, and so is the one that is unread.
theorem takes_unread_le {log : List Entry} (good : Runs.Emissions Good log) :
    takes generation fractionLost log +
      (if unread log = some (generation, fractionLost) then 1 else 0) ≤
        posts generation fractionLost log := by
  induction log using List.reverseRecOn with
  | nil => rfl
  | append_singleton rest entry ih =>
    have before := ih fun front event back split => good front event (back ++ [entry]) (by
      rw [split]
      simp)
    have last : Good rest entry := good rest entry [] rfl
    rw [takes_append_singleton, posts_append_singleton, unread_append_singleton]
    cases entry with
    | posted thread other fraction =>
      simp only [Option.some.injEq, Prod.mk.injEq]
      split_ifs at before ⊢ <;> omega
    | took thread other fraction =>
      cases fraction with
      | none => exact before
      | some fraction =>
        obtain ⟨report, found, whole⟩ := last
        simp only [reduceCtorEq, if_false]
        by_cases same : other = generation ∧ fraction = fractionLost.toUInt32
        · have own : report = fractionLost := by
            apply UInt8.toNat_inj.mp
            rw [← UInt8.toNat_toUInt32, ← UInt8.toNat_toUInt32, ← whole, same.2]
          rw [found, same.1, own, if_pos rfl] at before
          rw [if_pos same]
          exact before
        · rw [if_neg same]
          omega
    | emptied thread =>
      simp only [reduceCtorEq, if_false]
      omega
    | _ => exact before

/-- What is taken from the mailbox is the report that was posted last and is unread, under the
generation that takes it; a report is found wherever there is one, and none is taken twice. -/
theorem report_taken_once (actions : List Action) :
    (∀ before after thread generation fraction,
      (Runs.run step .initial actions).2 =
        before ++ Entry.took thread generation fraction :: after →
        ∀ fractionLost : UInt8, fraction = some fractionLost.toUInt32 ↔
          unread before = some (generation, fractionLost)) ∧
      ∀ generation fractionLost,
        takes generation fractionLost (Runs.run step .initial actions).2 ≤
          posts generation fractionLost (Runs.run step .initial actions).2 := by
  have good := run_good actions
  refine ⟨?_, fun generation fractionLost =>
    (Nat.le_add_right _ _).trans (takes_unread_le good)⟩
  intro before after thread generation fraction split fractionLost
  have met := good _ _ _ split
  cases fraction with
  | none => exact iff_of_false (Option.some_ne_none _).symm (met _)
  | some fraction =>
    obtain ⟨report, found, rfl⟩ := met
    rw [found, Option.some.injEq, Option.some.injEq, Prod.mk.injEq]
    refine ⟨fun same => ⟨rfl, ?_⟩, fun same => by rw [same.2]⟩
    apply UInt8.toNat_inj.mp
    rw [← UInt8.toNat_toUInt32, ← UInt8.toNat_toUInt32, same]

end Mailbox

end CcShared

end BetterParsec
