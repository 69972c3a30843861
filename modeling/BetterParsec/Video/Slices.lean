import BetterParsec.Library.Runs

set_option autoImplicit false
set_option linter.all false

/-!
# Slices of a frame

`slice.rs`: a frame arrives in up to four slices, one epoch at a time, and behind
a loss the first whole frame is one of key slices.
-/

namespace BetterParsec

def maxSlices : UInt8 := 4

structure SliceFrame where
  epoch : UInt32
  frameId : UInt32
  sliceCount : UInt8
  deriving DecidableEq

structure Slice where
  epoch : UInt32
  frameId : UInt32
  sliceIndex : UInt8
  sliceCount : UInt8
  isKey : Bool
  deriving DecidableEq

def Slice.frame (slice : Slice) : SliceFrame := ⟨slice.epoch, slice.frameId, slice.sliceCount⟩

inductive SliceOutcome where
  | pending
  | frameComplete
  | gated
  | epochReset
  | malformed
  deriving DecidableEq

structure SliceReassembler where
  epoch : UInt32
  awaitingKey : Bool
  frameId : Option UInt32
  sliceCount : UInt8
  got : UInt8
  droppedPartial : Nat
  deriving DecidableEq

namespace SliceReassembler

def new (epoch : UInt32) : SliceReassembler :=
  { epoch := epoch
    awaitingKey := true
    frameId := none
    sliceCount := 0
    got := 0
    droppedPartial := 0 }

variable (s : SliceReassembler) (slice : Slice)

def dropPartialIfIncomplete : SliceReassembler :=
  if s.frameId.isSome ∧ s.got ≠ 0 then { s with droppedPartial := s.droppedPartial + 1 } else s

def requestRecovery : SliceReassembler :=
  { s.dropPartialIfIncomplete with awaitingKey := true, frameId := none, got := 0 }

def adoptEpoch (epoch : UInt32) : SliceReassembler :=
  { s.dropPartialIfIncomplete with
    epoch := epoch, awaitingKey := true, frameId := none, got := 0, sliceCount := 0 }

def startFrame : SliceReassembler :=
  { s.dropPartialIfIncomplete with
    frameId := some slice.frameId, sliceCount := slice.sliceCount, got := 0 }

-- The slice of the current frame.
def count : SliceReassembler × SliceOutcome :=
  let got := s.got ||| (1 : UInt8) <<< slice.sliceIndex
  if got.toUInt16 = 1 <<< slice.sliceCount.toUInt16 - 1 then
    ({ s with
        awaitingKey := if slice.isKey then false else s.awaitingKey, frameId := none, got := 0 },
      .frameComplete)
  else ({ s with got := got }, .pending)

-- The slice of the current epoch.
def gate : SliceReassembler × SliceOutcome :=
  if s.awaitingKey && !slice.isKey then (s, .gated)
  else if s.frameId ≠ some slice.frameId then (s.startFrame slice).count slice
  else if s.sliceCount ≠ slice.sliceCount then (s, .malformed)
  else s.count slice

end SliceReassembler

def Slice.Malformed (slice : Slice) : Prop :=
  slice.sliceCount = 0 ∨ slice.sliceCount > maxSlices ∨ slice.sliceIndex ≥ slice.sliceCount

instance (slice : Slice) : Decidable slice.Malformed := inferInstanceAs (Decidable (_ ∨ _))

def SliceReassembler.push (s : SliceReassembler) (slice : Slice) :
    SliceReassembler × SliceOutcome :=
  if slice.Malformed then (s, .malformed)
  else if slice.epoch ≠ s.epoch then
    if !slice.isKey then (s.adoptEpoch slice.epoch, .epochReset)
    else (s.adoptEpoch slice.epoch).gate slice
  else s.gate slice

inductive SliceCall where
  | push (slice : Slice)
  | requestRecovery
  deriving DecidableEq

inductive SliceEntry where
  | pushed (slice : Slice) (outcome : SliceOutcome)
  | recovery
  deriving DecidableEq

def SliceReassembler.step (s : SliceReassembler) : SliceCall → SliceReassembler × List SliceEntry
  | .push slice => ((s.push slice).1, [.pushed slice (s.push slice).2])
  | .requestRecovery => (s.requestRecovery, [.recovery])

section History

-- The slice of an entry, if it was counted.
def SliceEntry.counted : SliceEntry → Option Slice
  | .pushed slice .pending => some slice
  | .pushed slice .frameComplete => some slice
  | _ => none

def SliceEntry.completes : SliceEntry → Bool
  | .pushed _ .frameComplete => true
  | _ => false

-- Nothing starts or drops the frame, and no other frame is accepted.
def SliceEntry.Continues (frame : SliceFrame) : SliceEntry → Prop
  | .recovery => False
  | .pushed slice outcome =>
    outcome ≠ .frameComplete ∧ outcome ≠ .epochReset ∧
      (¬slice.Malformed → slice.epoch = frame.epoch) ∧ (outcome = .pending → slice.frame = frame)

-- The epoch in force.
def epochAfter (epoch : UInt32) (log : List SliceEntry) : UInt32 :=
  log.foldl (fun current entry =>
    match entry with
    | .pushed slice _ => if slice.Malformed then current else slice.epoch
    | .recovery => current) epoch

-- A recovery or a change of epoch.
def SliceEntry.Rearms (epoch : UInt32) : SliceEntry → Prop
  | .recovery => True
  | .pushed slice _ => ¬slice.Malformed ∧ slice.epoch ≠ epoch

-- No frame is complete since the construction, a recovery or a change of epoch.
def AwaitsFirst (epoch : UInt32) (log : List SliceEntry) : Prop :=
  (∀ entry ∈ log, entry.completes = false) ∨
    ∃ (early : List SliceEntry) (trigger : SliceEntry) (late : List SliceEntry),
      log = early ++ trigger :: late ∧
      trigger.Rearms (epochAfter epoch early) ∧ ∀ entry ∈ trigger :: late, entry.completes = false

-- Every complete frame had all its slices counted since it was started, and the first one is made
-- of key slices.
def Isolated (epoch : UInt32) (log : List SliceEntry) : Prop :=
  ∀ before slice after, log = before ++ SliceEntry.pushed slice .frameComplete :: after →
    ∃ older since, before = older ++ since ∧ (∀ entry ∈ since, entry.Continues slice.frame) ∧
      (∀ index < slice.sliceCount, ∃ counted ∈ since.filterMap SliceEntry.counted ++ [slice],
        counted.frame = slice.frame ∧ counted.sliceIndex = index) ∧
      (AwaitsFirst epoch before ∨ slice.epoch ≠ epochAfter epoch before →
        ∀ counted ∈ since.filterMap SliceEntry.counted ++ [slice], counted.isKey = true)

end History

section Masks

variable {slices : List Slice}

-- The bits of the slices.
def sliceMask (slices : List Slice) : UInt8 :=
  slices.foldl (fun got slice => got ||| (1 : UInt8) <<< slice.sliceIndex) 0

theorem sliceMask_append (slices : List Slice) (slice : Slice) :
    sliceMask (slices ++ [slice]) = sliceMask slices ||| (1 : UInt8) <<< slice.sliceIndex := by
  rw [sliceMask, List.foldl_append]
  rfl

theorem toNat_bit {index : UInt8} (small : index.toNat < 8) :
    ((1 : UInt8) <<< index).toNat = 2 ^ index.toNat := by
  rw [UInt8.toNat_shiftLeft, Nat.mod_eq_of_lt small, UInt8.toNat_one, Nat.one_shiftLeft]
  exact Nat.mod_eq_of_lt (Nat.pow_lt_pow_right (by decide) small)

theorem mem_of_testBit {index : Nat} (small : ∀ slice ∈ slices, slice.sliceIndex.toNat < 8)
    (set : (sliceMask slices).toNat.testBit index = true) :
    ∃ slice ∈ slices, slice.sliceIndex.toNat = index := by
  induction slices using List.reverseRecOn with
  | nil =>
    rw [sliceMask, List.foldl_nil, UInt8.toNat_zero, Nat.zero_testBit] at set
    cases set
  | append_singleton slices slice ih =>
    rw [sliceMask_append, UInt8.toNat_or, Nat.testBit_or, Bool.or_eq_true] at set
    rcases set with earlier | last
    · obtain ⟨found, member, same⟩ :=
        ih (fun slice member => small slice (List.mem_append_left _ member)) earlier
      exact ⟨found, List.mem_append_left _ member, same⟩
    · rw [toNat_bit (small slice (by simp)), Nat.testBit_two_pow, decide_eq_true_eq] at last
      exact ⟨slice, by simp, last⟩

theorem toNat_full {count : UInt8} (small : count.toNat ≤ 4) :
    ((1 : UInt16) <<< count.toUInt16 - 1).toNat = 2 ^ count.toNat - 1 := by
  have value : count = UInt8.ofNat count.toNat := UInt8.ofNat_toNat.symm
  rw [value]
  interval_cases count.toNat <;> rfl

-- Where the mask is full, every slice is there.
theorem mem_of_full {count : UInt8} (few : count ≤ maxSlices)
    (small : ∀ slice ∈ slices, slice.sliceIndex < count)
    (full : (sliceMask slices).toUInt16 = 1 <<< count.toUInt16 - 1) {index : UInt8}
    (inside : index < count) : ∃ slice ∈ slices, slice.sliceIndex = index := by
  have few : count.toNat ≤ 4 := UInt8.le_iff_toNat_le.mp few
  have mask : (sliceMask slices).toNat = 2 ^ count.toNat - 1 := by
    rw [← UInt8.toNat_toUInt16, full, toNat_full few]
  have set : (sliceMask slices).toNat.testBit index.toNat = true := by
    rw [mask, Nat.testBit_two_pow_sub_one, decide_eq_true_eq]
    exact UInt8.lt_iff_toNat_lt.mp inside
  obtain ⟨slice, member, same⟩ := mem_of_testBit (fun slice member => by
    have below := UInt8.lt_iff_toNat_lt.mp (small slice member)
    omega) set
  exact ⟨slice, member, UInt8.toNat.inj same⟩

end Masks

section Histories

variable {epoch : UInt32} {log older since : List SliceEntry} {s : SliceReassembler}
  {frame : SliceFrame} {awaiting : Bool} {got : UInt8} {slice : Slice} {entry : SliceEntry}

theorem epochAfter_append (epoch : UInt32) (log : List SliceEntry) (entry : SliceEntry) :
    epochAfter epoch (log ++ [entry]) =
      match entry with
      | .pushed slice _ => if slice.Malformed then epochAfter epoch log else slice.epoch
      | .recovery => epochAfter epoch log := by
  rw [epochAfter, List.foldl_append]
  rfl

theorem AwaitsFirst.of_append (awaits : AwaitsFirst epoch (log ++ [entry])) :
    entry.completes = false ∧ (AwaitsFirst epoch log ∨ entry.Rearms (epochAfter epoch log)) := by
  rcases awaits with none | ⟨early, trigger, late, split, rearms, none⟩
  · exact ⟨none entry (by simp), .inl (.inl fun other member => none other (by simp [member]))⟩
  · rcases Runs.concat_split split with ⟨rfl, rfl, rfl⟩ | ⟨late, rfl, rfl⟩
    · exact ⟨none entry (by simp), .inr rearms⟩
    · refine ⟨none entry (by simp), .inl (.inr ⟨early, trigger, late, rfl, rearms, ?_⟩)⟩
      intro other member
      apply none other
      rcases List.mem_cons.mp member with rfl | later
      · exact List.mem_cons_self
      · exact List.mem_cons_of_mem _ (by simp [later])

-- The entries since a frame was started, against its bits.
structure Collects (frame : SliceFrame) (awaiting : Bool) (got : UInt8)
    (since : List SliceEntry) : Prop where
  continues : ∀ entry ∈ since, entry.Continues frame
  counted : ∀ counted ∈ since.filterMap SliceEntry.counted,
    ¬counted.Malformed ∧ counted.frame = frame ∧ (awaiting = true → counted.isKey = true)
  mask : got = sliceMask (since.filterMap SliceEntry.counted)

theorem collects_nil (frame : SliceFrame) (awaiting : Bool) : Collects frame awaiting 0 [] :=
  ⟨by simp, by simp, rfl⟩

theorem Collects.skip (collects : Collects frame awaiting got since)
    (continues : entry.Continues frame) (uncounted : entry.counted = none) :
    Collects frame awaiting got (since ++ [entry]) := by
  have same : (since ++ [entry]).filterMap SliceEntry.counted =
      since.filterMap SliceEntry.counted := by
    rw [List.filterMap_append, List.filterMap_cons_none uncounted, List.filterMap_nil,
      List.append_nil]
  refine ⟨?_, by rw [same]; exact collects.counted, by rw [same]; exact collects.mask⟩
  intro other member
  rcases List.mem_append.mp member with earlier | last
  · exact collects.continues other earlier
  · exact List.mem_singleton.mp last ▸ continues

theorem Collects.counted_append (collects : Collects frame awaiting got since)
    (wellFormed : ¬slice.Malformed) (same : slice.frame = frame)
    (gated : awaiting = true → slice.isKey = true) :
    ∀ counted ∈ since.filterMap SliceEntry.counted ++ [slice],
      ¬counted.Malformed ∧ counted.frame = frame ∧ (awaiting = true → counted.isKey = true) := by
  intro counted member
  rcases List.mem_append.mp member with earlier | last
  · exact collects.counted counted earlier
  · exact List.mem_singleton.mp last ▸ ⟨wellFormed, same, gated⟩

theorem Collects.count (collects : Collects frame awaiting got since)
    (wellFormed : ¬slice.Malformed) (same : slice.frame = frame)
    (gated : awaiting = true → slice.isKey = true) :
    Collects frame awaiting (got ||| (1 : UInt8) <<< slice.sliceIndex)
      (since ++ [SliceEntry.pushed slice .pending]) := by
  have slices : (since ++ [SliceEntry.pushed slice .pending]).filterMap SliceEntry.counted =
      since.filterMap SliceEntry.counted ++ [slice] := List.filterMap_append
  refine ⟨?_, ?_, ?_⟩
  · intro other member
    rcases List.mem_append.mp member with earlier | last
    · exact collects.continues other earlier
    · obtain rfl := List.mem_singleton.mp last
      exact ⟨nofun, nofun, fun _ => same ▸ rfl, fun _ => same⟩
  · rw [slices]
    exact collects.counted_append wellFormed same gated
  · rw [slices, sliceMask_append, collects.mask]

-- With all bits set, every slice of the frame has been counted.
theorem Collects.complete (collects : Collects frame awaiting got since)
    (wellFormed : ¬slice.Malformed) (same : slice.frame = frame)
    (gated : awaiting = true → slice.isKey = true)
    (full : (got ||| (1 : UInt8) <<< slice.sliceIndex).toUInt16 =
      1 <<< slice.sliceCount.toUInt16 - 1) {index : UInt8} (inside : index < slice.sliceCount) :
    ∃ counted ∈ since.filterMap SliceEntry.counted ++ [slice],
      counted.frame = slice.frame ∧ counted.sliceIndex = index := by
  have each := collects.counted_append wellFormed same gated
  rw [collects.mask, ← sliceMask_append] at full
  have few : slice.sliceCount ≤ maxSlices :=
    UInt8.not_lt.mp fun many => wellFormed (.inr (.inl many))
  obtain ⟨counted, member, found⟩ := mem_of_full few (fun counted member => by
    obtain ⟨sound, frame_eq, -⟩ := each counted member
    have count : counted.sliceCount = slice.sliceCount :=
      congrArg SliceFrame.sliceCount (frame_eq.trans same.symm)
    rw [← count]
    exact UInt8.not_le.mp fun outside => sound (.inr (.inr outside))) full inside
  exact ⟨counted, member, (each counted member).2.1.trans same.symm, found⟩

theorem Isolated.append (isolated : Isolated epoch log)
    (last : ∀ slice, entry = .pushed slice .frameComplete →
      ∃ older since, log = older ++ since ∧ (∀ entry ∈ since, entry.Continues slice.frame) ∧
        (∀ index < slice.sliceCount, ∃ counted ∈ since.filterMap SliceEntry.counted ++ [slice],
          counted.frame = slice.frame ∧ counted.sliceIndex = index) ∧
        (AwaitsFirst epoch log ∨ slice.epoch ≠ epochAfter epoch log →
          ∀ counted ∈ since.filterMap SliceEntry.counted ++ [slice], counted.isKey = true)) :
    Isolated epoch (log ++ [entry]) := by
  intro before slice after split
  rcases Runs.concat_split split with ⟨-, rfl, found⟩ | ⟨front, -, rfl⟩
  · exact last slice found
  · exact isolated before slice front rfl

-- The reassembler against the entries so far.
structure Tracks (epoch : UInt32) (log : List SliceEntry) (s : SliceReassembler) : Prop where
  inForce : s.epoch = epochAfter epoch log
  waiting : AwaitsFirst epoch log → s.awaitingKey = true
  collects : ∀ frameId, s.frameId = some frameId → ∃ older since, log = older ++ since ∧
    Collects ⟨s.epoch, frameId, s.sliceCount⟩ s.awaitingKey s.got since
  isolated : Isolated epoch log

-- The same in front of a slice whose epoch has been adopted.
structure Adopted (epoch : UInt32) (log : List SliceEntry) (s : SliceReassembler) (slice : Slice) :
    Prop where
  inForce : s.epoch = slice.epoch
  waiting : AwaitsFirst epoch log ∨ slice.epoch ≠ epochAfter epoch log → s.awaitingKey = true
  collects : ∀ frameId, s.frameId = some frameId → ∃ older since, log = older ++ since ∧
    Collects ⟨s.epoch, frameId, s.sliceCount⟩ s.awaitingKey s.got since
  isolated : Isolated epoch log

theorem tracks_new (epoch : UInt32) : Tracks epoch [] (.new epoch) :=
  ⟨rfl, fun _ => rfl, nofun, fun _ _ _ split => absurd split (by simp)⟩

theorem dropPartial_eq (s : SliceReassembler) :
    ∃ dropped, s.dropPartialIfIncomplete = { s with droppedPartial := dropped } := by
  unfold SliceReassembler.dropPartialIfIncomplete
  split_ifs
  · exact ⟨_, rfl⟩
  · exact ⟨s.droppedPartial, rfl⟩

theorem epochAfter_pushed (wellFormed : ¬slice.Malformed) (epoch : UInt32) (log : List SliceEntry)
    (outcome : SliceOutcome) :
    epochAfter epoch (log ++ [SliceEntry.pushed slice outcome]) = slice.epoch := by
  rw [epochAfter_append]
  exact if_neg wellFormed

-- A well-formed slice that completes nothing.
theorem Adopted.tracks (adopted : Adopted epoch log s slice) (wellFormed : ¬slice.Malformed)
    {outcome : SliceOutcome} (incomplete : outcome ≠ .frameComplete) {s' : SliceReassembler}
    (sameEpoch : s'.epoch = s.epoch) (sameGate : s'.awaitingKey = s.awaitingKey)
    (collects : ∀ frameId, s'.frameId = some frameId → ∃ older since,
      log ++ [SliceEntry.pushed slice outcome] = older ++ since ∧
      Collects ⟨s'.epoch, frameId, s'.sliceCount⟩ s'.awaitingKey s'.got since) :
    Tracks epoch (log ++ [SliceEntry.pushed slice outcome]) s' := by
  refine ⟨?_, fun awaits => ?_, collects, adopted.isolated.append ?_⟩
  · rw [epochAfter_pushed wellFormed, sameEpoch]
    exact adopted.inForce
  · rw [sameGate]
    exact adopted.waiting (awaits.of_append.2.imp_right And.right)
  · intro other same
    exact absurd (SliceEntry.pushed.inj same).2 incomplete

theorem Adopted.count (adopted : Adopted epoch log s slice) (wellFormed : ¬slice.Malformed)
    (gated : s.awaitingKey = true → slice.isKey = true) (current : s.frameId = some slice.frameId)
    (count : s.sliceCount = slice.sliceCount) :
    Tracks epoch (log ++ [SliceEntry.pushed slice (s.count slice).2]) (s.count slice).1 := by
  obtain ⟨older, since, split, collects⟩ := adopted.collects slice.frameId current
  have frame : slice.frame = ⟨s.epoch, slice.frameId, s.sliceCount⟩ := by
    rw [Slice.frame, adopted.inForce, count]
  unfold SliceReassembler.count
  by_cases full : (s.got ||| (1 : UInt8) <<< slice.sliceIndex).toUInt16 =
      1 <<< slice.sliceCount.toUInt16 - 1
  · simp only [if_pos full]
    refine ⟨?_, fun awaits => ?_, nofun, adopted.isolated.append ?_⟩
    · rw [epochAfter_pushed wellFormed]
      exact adopted.inForce
    · cases awaits.of_append.1
    · intro other same
      obtain rfl := (SliceEntry.pushed.inj same).1
      refine ⟨older, since, split, ?_, fun index => collects.complete wellFormed frame gated full,
        fun first counted member => ?_⟩
      · rw [frame]
        exact collects.continues
      · exact (collects.counted_append wellFormed frame gated counted member).2.2
          (adopted.waiting first)
  · simp only [if_neg full]
    refine adopted.tracks wellFormed (by decide : SliceOutcome.pending ≠ .frameComplete) rfl rfl
      fun frameId same => ?_
    obtain rfl := Option.some.inj (current.symm.trans same)
    refine ⟨older, since ++ [SliceEntry.pushed slice .pending], ?_,
      collects.count wellFormed frame gated⟩
    rw [split, List.append_assoc]

theorem Adopted.startFrame (adopted : Adopted epoch log s slice) :
    Adopted epoch log (s.startFrame slice) slice := by
  obtain ⟨dropped, same⟩ := dropPartial_eq s
  unfold SliceReassembler.startFrame
  rw [same]
  refine ⟨adopted.inForce, adopted.waiting, fun frameId _ => ⟨log, [], ?_, ?_⟩, adopted.isolated⟩
  · exact (List.append_nil log).symm
  · exact collects_nil _ _

theorem Adopted.gate (adopted : Adopted epoch log s slice) (wellFormed : ¬slice.Malformed) :
    Tracks epoch (log ++ [SliceEntry.pushed slice (s.gate slice).2]) (s.gate slice).1 := by
  -- A slice that is not counted leaves the frame as it is.
  have skips (outcome : SliceOutcome) (incomplete : outcome ≠ .frameComplete)
      (kept : outcome ≠ .epochReset) (uncounted : outcome ≠ .pending) :
      Tracks epoch (log ++ [SliceEntry.pushed slice outcome]) s := by
    refine adopted.tracks wellFormed incomplete rfl rfl fun frameId current => ?_
    obtain ⟨older, since, split, collects⟩ := adopted.collects frameId current
    refine ⟨older, since ++ [SliceEntry.pushed slice outcome], ?_, collects.skip ?_ ?_⟩
    · rw [split, List.append_assoc]
    · exact ⟨incomplete, kept, fun _ => adopted.inForce.symm, fun pending => absurd pending uncounted⟩
    · cases outcome <;> first | rfl | contradiction
  unfold SliceReassembler.gate
  by_cases gated : (s.awaitingKey && !slice.isKey) = true
  · rw [if_pos gated]
    exact skips .gated nofun nofun nofun
  have key : s.awaitingKey = true → slice.isKey = true := by
    intro awaiting
    simpa [awaiting] using gated
  rw [if_neg gated]
  split_ifs with fresh count
  · refine adopted.startFrame.count wellFormed (fun awaiting => key ?_) rfl rfl
    obtain ⟨dropped, same⟩ := dropPartial_eq s
    rw [SliceReassembler.startFrame, same] at awaiting
    exact awaiting
  · exact skips .malformed nofun nofun nofun
  · exact adopted.count wellFormed key (not_not.mp fresh) (not_not.mp count)

theorem Tracks.push (tracks : Tracks epoch log s) (slice : Slice) :
    Tracks epoch (log ++ [SliceEntry.pushed slice (s.push slice).2]) (s.push slice).1 := by
  unfold SliceReassembler.push
  split_ifs with malformed other delta
  · refine ⟨?_, fun awaits => ?_, fun frameId current => ?_, tracks.isolated.append nofun⟩
    · rw [epochAfter_append]
      exact tracks.inForce.trans (if_pos malformed).symm
    · rcases awaits.of_append.2 with waits | ⟨wellFormed, -⟩
      · exact tracks.waiting waits
      · exact absurd malformed wellFormed
    · obtain ⟨older, since, split, collects⟩ := tracks.collects frameId current
      refine ⟨older, since ++ [SliceEntry.pushed slice .malformed], ?_, collects.skip ?_ rfl⟩
      · rw [split, List.append_assoc]
      · exact ⟨nofun, nofun, fun wellFormed => absurd malformed wellFormed, nofun⟩
  · refine ⟨?_, fun _ => rfl, nofun, tracks.isolated.append nofun⟩
    rw [epochAfter_pushed malformed]
    rfl
  · exact Adopted.gate ⟨rfl, fun _ => rfl, nofun, tracks.isolated⟩ malformed
  · have same : slice.epoch = s.epoch := not_not.mp other
    refine Adopted.gate ⟨same.symm, fun awaits => ?_, tracks.collects, tracks.isolated⟩ malformed
    rcases awaits with waits | changed
    · exact tracks.waiting waits
    · exact absurd (same.trans tracks.inForce) changed

theorem Tracks.requestRecovery (tracks : Tracks epoch log s) :
    Tracks epoch (log ++ [SliceEntry.recovery]) s.requestRecovery := by
  refine ⟨?_, fun _ => rfl, nofun, tracks.isolated.append nofun⟩
  obtain ⟨dropped, same⟩ := dropPartial_eq s
  rw [epochAfter_append, SliceReassembler.requestRecovery, same]
  exact tracks.inForce

theorem step_tracks (epoch : UInt32) (log : List SliceEntry) (s : SliceReassembler)
    (call : SliceCall) (tracks : Tracks epoch log s) :
    Tracks epoch (log ++ (s.step call).2) (s.step call).1 := by
  cases call with
  | push slice => exact tracks.push slice
  | requestRecovery => exact tracks.requestRecovery

/-- Frames are complete only from slices of their own, and the first one behind a loss or a change
of epoch only from key slices. -/
theorem run_slices_isolated (epoch : UInt32) (calls : List SliceCall) :
    Isolated epoch (Runs.run SliceReassembler.step (.new epoch) calls).2 := by
  have tracks := Runs.run_invariant_of_forall SliceReassembler.step (Tracks epoch)
    (step_tracks epoch) [] (.new epoch) calls (tracks_new epoch)
  exact tracks.isolated

end Histories

end BetterParsec
