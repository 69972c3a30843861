import BetterParsec.Updater.Swap

set_option autoImplicit false
set_option linter.all false

/-!
# Crash safety of the swap

No action of the updater replaces a complete set, so a set that is renamed is found
at the other end. Wherever the calls are interrupted, a missing install directory is
named by a readable journal, from which recovery brings a complete set back.
-/

namespace BetterParsec

open Interruption

variable {Item : Type}

structure CompleteSet (Item : Type) where
  items : List Item
  nonempty : items ≠ []

def CompleteSet.node (set : CompleteSet Item) : Node Item := .dir set.items

-- A path that `prev_path` gives for this install directory.
def PrevOf (install path : Path) : Prop :=
  ∃ version, path = prevCandidate install version ∨
    ∃ timestamp, path = prevStamped install version timestamp

theorem journalPath_ne (install : Path) : journalPath install ≠ install := by
  intro same
  have length := congrArg (fun path => path.fileName.length) same
  simp [journalPath, Path.withFileName] at length

namespace Disk

variable {disk next : Disk Item} {path source target : Path} {step : String} {journal : Journal}
  {set : CompleteSet Item}

theorem put_same (disk : Disk Item) (path : Path) (node : Option (Node Item)) :
    disk.put path node path = node := by simp [put]

theorem put_other {other : Path} (node : Option (Node Item)) (different : other ≠ path) :
    disk.put path node other = disk other := by simp [put, different]

theorem prevPath_prevOf (disk : Disk Item) (install : Path) (version : String)
    (timestamp : Nat) : PrevOf install (disk.prevPath install version timestamp) := by
  unfold prevPath
  split_ifs
  · exact ⟨version, .inl rfl⟩
  · exact ⟨version, .inr ⟨timestamp, rfl⟩⟩

theorem rename_ok (renamed : disk.rename step source target = .ok next) :
    ∃ node, disk source = some node ∧
      (source = target ∧ next = disk ∨
        source ≠ target ∧ replaces node (disk target) = true ∧
          next = (disk.put source none).put target (some node)) := by
  unfold rename at renamed
  split at renamed
  · simp at renamed
  next node found =>
    split_ifs at renamed with same free
    · exact ⟨node, found, .inl ⟨same, (Except.ok.inj renamed).symm⟩⟩
    · exact ⟨node, found, .inr ⟨same, free, (Except.ok.inj renamed).symm⟩⟩

theorem not_replaces (node : Node Item) (set : CompleteSet Item) :
    replaces node (some set.node) = false := by
  obtain ⟨items, nonempty⟩ := set
  cases items with
  | nil => exact absurd rfl nonempty
  | cons item rest => cases node <;> rfl

/-- A rename leaves a complete set where it is, or takes it to its target. -/
theorem rename_keeps (renamed : disk.rename step source target = .ok next)
    (held : disk path = some set.node) :
    next path = some set.node ∨ path = source ∧ next target = some set.node := by
  obtain ⟨node, found, ⟨-, rfl⟩ | ⟨different, free, rfl⟩⟩ := rename_ok renamed
  · exact .inl held
  · by_cases atTarget : path = target
    · rw [← atTarget, held, not_replaces] at free
      simp at free
    · by_cases atSource : path = source
      · refine .inr ⟨atSource, ?_⟩
        rw [put_same, ← found, ← atSource, held]
      · refine .inl ?_
        rw [put_other _ atTarget, put_other _ atSource, held]

theorem writeJournal_ok (written : disk.writeJournal source journal = .ok next) :
    (∀ set : CompleteSet Item, disk source ≠ some set.node) ∧
      next = disk.put source (some (.journal journal)) := by
  unfold writeJournal at written
  split at written
  · simp at written
  next notDir =>
    exact ⟨fun set found => notDir set.items found, (Except.ok.inj written).symm⟩

theorem removeJournal_ok (removed : disk.removeJournal source = .ok next) :
    (∀ set : CompleteSet Item, disk source ≠ some set.node) ∧ next = disk.put source none := by
  unfold removeJournal at removed
  split at removed
  next absent =>
    refine ⟨fun set found => by simp [absent] at found, ?_⟩
    rw [← Except.ok.inj removed]
    funext other
    by_cases same : other = source
    · rw [same, put_same, absent]
    · rw [put_other _ same]
  · simp at removed
  next node notDir held =>
    exact ⟨fun set found => notDir set.items (Option.some.inj (held.symm.trans found)),
      (Except.ok.inj removed).symm⟩

theorem tearJournal_cases (disk : Disk Item) (source : Path) :
    disk.tearJournal source = disk ∨
      (∀ set : CompleteSet Item, disk source ≠ some set.node) ∧
        disk.tearJournal source = disk.put source (some .torn) := by
  unfold tearJournal
  split
  · exact .inl rfl
  next notDir => exact .inr ⟨fun set found => notDir set.items found, rfl⟩

/-- Nothing but a complete set is written over. -/
theorem put_keeps {node : Option (Node Item)}
    (free : ∀ set : CompleteSet Item, disk source ≠ some set.node)
    (held : disk path = some set.node) : disk.put source node path = some set.node := by
  rw [put_other, held]
  rintro rfl
  exact free set held

end Disk

section Calls

variable (staged install : Path) (installed : Option (CompleteSet Item)) (new : CompleteSet Item)

-- Both sets are complete somewhere: the installed one at the install directory or set aside from
-- it, the staged one there or where it was staged.
structure Survive (disk : Disk Item) : Prop where
  old : ∀ set ∈ installed, ∃ path, (path = install ∨ PrevOf install path) ∧
    disk path = some set.node
  new : ∃ path, (path = staged ∨ path = install ∨ PrevOf install path) ∧ disk path = some new.node

def OneOf (old new : CompleteSet Item) (node : Option (Node Item)) : Prop :=
  node = some old.node ∨ node = some new.node

-- A set is installed, or set aside where a journal says.
def Recoverable (old : CompleteSet Item) (disk : Disk Item) : Prop :=
  OneOf old new (disk install) ∨
    disk install = none ∧ ∃ prev,
      disk (journalPath install) = some (.journal ⟨.prevRenamed, prev⟩) ∧ OneOf old new (disk prev)

-- What holds wherever the calls are interrupted.
structure Safe (disk : Disk Item) : Prop where
  survive : Survive staged install installed new disk
  staged : ∀ old ∈ installed, disk staged = none ∨ OneOf old new (disk staged)
  recoverable : ∀ old ∈ installed, Recoverable install new old disk

structure Installed (disk : Disk Item) : Prop where
  survive : Survive staged install installed new disk
  staged : ∀ old ∈ installed, disk staged = none ∨ OneOf old new (disk staged)
  installed : ∀ old ∈ installed, OneOf old new (disk install)

variable {staged install installed new}
variable {disk next : Disk Item} {step : String}

theorem Installed.safe (holds : Installed staged install installed new disk) :
    Safe staged install installed new disk :=
  ⟨holds.survive, holds.staged, fun old isOld => .inl (holds.installed old isOld)⟩

theorem Safe.installed_of_no_journal (safe : Safe staged install installed new disk)
    (absent : disk (journalPath install) = none) : Installed staged install installed new disk := by
  refine ⟨safe.survive, safe.staged, fun old isOld => ?_⟩
  obtain here | ⟨-, prev, journal, -⟩ := safe.recoverable old isOld
  · exact here
  · simp [absent] at journal

theorem OneOf.exists {old : CompleteSet Item} {node : Option (Node Item)}
    (oneOf : OneOf old new node) : ∃ set : CompleteSet Item, node = some set.node := by
  obtain same | same := oneOf
  · exact ⟨old, same⟩
  · exact ⟨new, same⟩

/-- Writing over what is no set, at the journal's path, loses neither set. -/
theorem Survive.put (survive : Survive staged install installed new disk) {path : Path}
    {node : Option (Node Item)} (free : ∀ set : CompleteSet Item, disk path ≠ some set.node) :
    Survive staged install installed new (disk.put path node) := by
  constructor
  · intro set isOld
    obtain ⟨place, known, held⟩ := survive.old set isOld
    exact ⟨place, known, Disk.put_keeps free held⟩
  · obtain ⟨place, known, held⟩ := survive.new
    exact ⟨place, known, Disk.put_keeps free held⟩

/-- A rename to the install directory, or from it to a path set aside, loses neither set. -/
theorem Survive.rename (survive : Survive staged install installed new disk) {source target : Path}
    (known : target = install ∨ PrevOf install target)
    (renamed : disk.rename step source target = .ok next) :
    Survive staged install installed new next := by
  constructor
  · intro set isOld
    obtain ⟨place, known', held⟩ := survive.old set isOld
    obtain still | ⟨-, moved⟩ := Disk.rename_keeps renamed held
    · exact ⟨place, known', still⟩
    · exact ⟨target, known, moved⟩
  · obtain ⟨place, known', held⟩ := survive.new
    obtain still | ⟨-, moved⟩ := Disk.rename_keeps renamed held
    · exact ⟨place, known', still⟩
    · exact ⟨target, .inr known, moved⟩

theorem Installed.put (holds : Installed staged install installed new disk)
    (apart : journalPath install ≠ staged) {node : Option (Node Item)}
    (free : ∀ set : CompleteSet Item, disk (journalPath install) ≠ some set.node) :
    Installed staged install installed new (disk.put (journalPath install) node) := by
  refine ⟨holds.survive.put free, fun old isOld => ?_, fun old isOld => ?_⟩
  · rw [Disk.put_other _ apart.symm]
    exact holds.staged old isOld
  · rw [Disk.put_other _ (journalPath_ne install).symm]
    exact holds.installed old isOld

/-- Where a rename brings one of the sets, one of the sets stands. -/
theorem OneOf.renamed {old : CompleteSet Item} {source target : Path}
    (oneOf : OneOf old new (disk source)) (renamed : disk.rename step source target = .ok next) :
    OneOf old new (next target) := by
  obtain ⟨node, found, ⟨rfl, rfl⟩ | ⟨-, -, rfl⟩⟩ := Disk.rename_ok renamed
  · exact oneOf
  · rw [Disk.put_same, ← found]
    exact oneOf

/-- The staged path holds nothing or one of the sets after one of the sets was renamed. -/
theorem OneOf.leavesStaged {old : CompleteSet Item} {source target : Path}
    (oneOf : OneOf old new (disk source)) (renamed : disk.rename step source target = .ok next)
    (before : disk staged = none ∨ OneOf old new (disk staged)) :
    next staged = none ∨ OneOf old new (next staged) := by
  by_cases atTarget : staged = target
  · exact .inr (atTarget ▸ oneOf.renamed renamed)
  · obtain ⟨node, found, ⟨-, rfl⟩ | ⟨-, -, rfl⟩⟩ := Disk.rename_ok renamed
    · exact before
    · rw [Disk.put_other _ atTarget]
      by_cases atSource : staged = source
      · exact .inl (atSource ▸ Disk.put_same _ _ _)
      · rwa [Disk.put_other _ atSource]

/-- The previous set is put back. -/
theorem Safe.restored (safe : Safe staged install installed new disk) {prev : Path}
    (absent : disk install = none)
    (journal : disk (journalPath install) = some (.journal ⟨.prevRenamed, prev⟩))
    (renamed : disk.rename step prev install = .ok next) :
    Installed staged install installed new next := by
  have aside (old : CompleteSet Item) (isOld : old ∈ installed) : OneOf old new (disk prev) := by
    obtain here | ⟨-, path, named, oneOf⟩ := safe.recoverable old isOld
    · obtain ⟨set, held⟩ := here.exists
      simp [absent] at held
    · simp only [journal, Option.some.injEq, Node.journal.injEq, Journal.mk.injEq] at named
      exact named.2 ▸ oneOf
  exact ⟨safe.survive.rename (.inl rfl) renamed,
    fun old isOld => (aside old isOld).leavesStaged renamed (safe.staged old isOld),
    fun old isOld => (aside old isOld).renamed renamed⟩

/-- The installed set is set aside. -/
theorem Installed.setAside (holds : Installed staged install installed new disk) {prev : Path}
    (known : PrevOf install prev)
    (journal : disk (journalPath install) = some (.journal ⟨.prevRenamed, prev⟩))
    (renamed : disk.rename step install prev = .ok next) :
    Safe staged install installed new next := by
  refine ⟨holds.survive.rename (.inr known) renamed,
    fun old isOld => (holds.installed old isOld).leavesStaged renamed (holds.staged old isOld),
    fun old isOld => ?_⟩
  have moved := (holds.installed old isOld).renamed renamed
  obtain ⟨node, found, ⟨-, rfl⟩ | ⟨different, free, rfl⟩⟩ := Disk.rename_ok renamed
  · exact .inl (holds.installed old isOld)
  · -- The journal stands at its path, so the set was not renamed onto it.
    have apart : journalPath install ≠ prev := by
      rintro rfl
      obtain ⟨set, held⟩ := (holds.installed old isOld).exists
      rw [journal, Option.some.inj (found.symm.trans held)] at free
      simp [Disk.replaces, CompleteSet.node] at free
    refine .inr ⟨?_, prev, ?_, moved⟩
    · rw [Disk.put_other _ different, Disk.put_same]
    · rw [Disk.put_other _ apart, Disk.put_other _ (journalPath_ne install), journal]

/-- The staged set is moved in. -/
theorem Safe.movedIn (safe : Safe staged install installed new disk)
    (renamed : disk.rename step staged install = .ok next) :
    Installed staged install installed new next := by
  have present (old : CompleteSet Item) (isOld : old ∈ installed) :
      OneOf old new (disk staged) := by
    obtain ⟨node, found, -⟩ := Disk.rename_ok renamed
    exact (safe.staged old isOld).resolve_left (by simp [found])
  exact ⟨safe.survive.rename (.inl rfl) renamed,
    fun old isOld => (present old isOld).leavesStaged renamed (safe.staged old isOld),
    fun old isOld => (present old isOld).renamed renamed⟩

section Programs

variable (apart : journalPath install ≠ staged)

include apart

theorem removeJournal_triple :
    Triple (Installed staged install installed new) (removeJournalStep (journalPath install))
      (fun _ => Installed staged install installed new) (Safe staged install installed new) := by
  refine .atomic (fun disk next holds removed => ?_) (fun _ holds => holds.safe)
    (fun _ holds => holds.safe)
  obtain ⟨free, rfl⟩ := Disk.removeJournal_ok removed
  exact holds.put apart free

theorem writeJournal_triple (journal : Journal) :
    Triple (Installed staged install installed new)
      (writeJournalStep (journalPath install) journal)
      (fun _ disk => Installed staged install installed new disk ∧
        disk (journalPath install) = some (.journal journal))
      (Safe staged install installed new) := by
  refine .atomic (fun disk next holds written => ?_) (fun _ holds => holds.safe)
    (fun disk holds => ?_)
  · obtain ⟨free, rfl⟩ := Disk.writeJournal_ok written
    exact ⟨holds.put apart free, Disk.put_same _ _ _⟩
  · obtain same | ⟨free, torn⟩ := disk.tearJournal_cases (journalPath install)
    · rw [same]
      exact holds.safe
    · rw [torn]
      exact (holds.put apart free).safe

omit apart in
theorem restore_triple (journal : Journal) :
    Triple (fun disk => Safe staged install installed new disk ∧
        disk (journalPath install) = some (.journal journal))
      (restore journal install) (fun _ => Installed staged install installed new)
      (Safe staged install installed new) := by
  refine .bind (.observe _) fun installExists => .bind (.observe _) fun prevExists => ?_
  refine .ite (fun restores => ?_) (fun leaves => ?_)
  · refine .atomic (fun disk next holds renamed => ?_) (fun _ holds => holds.1.1.1)
      (fun _ holds => holds.1.1.1)
    obtain ⟨⟨⟨safe, found⟩, hasInstall⟩, hasPrev⟩ := holds
    obtain ⟨phase, prev⟩ := journal
    cases phase with
    | stagedMoved => simp [decideRecovery] at restores
    | prevRenamed =>
      have absent : installExists = false := by
        cases installExists <;> simp [decideRecovery] at restores ⊢
      rw [absent] at hasInstall
      exact safe.restored (by simpa [Disk.pathExists] using hasInstall) found renamed
  · refine .pure () (fun disk holds => ?_)
    obtain ⟨⟨⟨safe, found⟩, hasInstall⟩, hasPrev⟩ := holds
    refine ⟨safe.survive, safe.staged, fun old isOld => ?_⟩
    obtain here | ⟨absent, prev, named, oneOf⟩ := safe.recoverable old isOld
    · exact here
    · -- A journal that names the set at `prev` would have had it restored.
      obtain ⟨set, held⟩ := oneOf.exists
      obtain rfl : journal = ⟨.prevRenamed, prev⟩ := by simpa [found] using named
      simp [← hasInstall, ← hasPrev, Disk.pathExists, absent, held, decideRecovery] at leaves

theorem recover_triple :
    Triple (Safe staged install installed new) (recoverIfInterrupted install)
      (fun _ => Installed staged install installed new) (Safe staged install installed new) := by
  refine .bind (.observe _) fun interrupted => .ite (fun present => ?_) (fun absent => ?_)
  · refine .bind (.attempt _ (fun _ holds => holds.1)) fun journal => ?_
    refine .bind ((restore_triple journal).weaken fun disk holds => ?_) fun _ =>
      removeJournal_triple apart
    refine ⟨holds.1.1, ?_⟩
    have read := holds.2
    unfold Disk.readJournal at read
    split at read
    all_goals simp_all
  · refine .pure () (fun disk holds => holds.1.installed_of_no_journal ?_)
    simpa [← holds.2, Disk.pathExists] using absent

omit apart in
theorem setAside_triple {prev : Path} (known : PrevOf install prev) :
    Triple (fun disk => Installed staged install installed new disk ∧
        disk (journalPath install) = some (.journal ⟨.prevRenamed, prev⟩))
      (setAside install prev) (fun _ => Safe staged install installed new)
      (Safe staged install installed new) := by
  refine .bind (.observe _) fun installExists => .ite (fun present => ?_) (fun absent => ?_)
  · refine .atomic (fun disk next holds renamed => ?_) (fun _ holds => holds.1.1.safe)
      (fun _ holds => holds.1.1.safe)
    exact holds.1.1.setAside known holds.1.2 renamed
  · exact .pure () (fun _ holds => holds.1.1.safe)

omit apart in
theorem moveIn_triple :
    Triple (Safe staged install installed new)
      (renameStep "rename staged into install" staged install)
      (fun _ => Installed staged install installed new) (Safe staged install installed new) :=
  .atomic (fun _ _ safe renamed => safe.movedIn renamed) (fun _ safe => safe) (fun _ safe => safe)

theorem performSwap_triple (version : String) (timestamp : Nat) :
    Triple (Safe staged install installed new) (performSwap staged install version timestamp)
      (fun _ => Installed staged install installed new) (Safe staged install installed new) := by
  refine .bind (recover_triple apart) fun _ => .bind (.observe _) fun prev => ?_
  refine .assume (fun disk holds => holds.2 ▸ disk.prevPath_prevOf install version timestamp)
    fun known => ?_
  refine .bind ((writeJournal_triple apart _).weaken fun _ holds => holds.1) fun _ => ?_
  refine .bind (setAside_triple known) fun _ => .bind moveIn_triple fun _ => ?_
  refine .bind (writeJournal_triple apart _) fun _ => ?_
  exact (removeJournal_triple apart).weaken fun _ holds => holds.1

theorem Safe.call (safe : Safe staged install installed new disk) (input : UpdaterCall × Cut) :
    Safe staged install installed new (updaterStep staged install disk input).1 := by
  obtain ⟨call, cut⟩ := input
  cases call with
  | recover =>
    exact ((recover_triple apart).relax fun _ _ holds => holds.safe).execute_keeps cut safe
  | swap version timestamp =>
    exact ((performSwap_triple apart version timestamp).relax
      fun _ _ holds => holds.safe).execute_keeps cut safe

end Programs

end Calls

def installDir : Path := ⟨"/opt", "betterparsec"⟩

def stagedDir : Path := ⟨"/opt", "staged"⟩

def setOne : CompleteSet Nat := ⟨[1], by simp⟩

def setTwo : CompleteSet Nat := ⟨[2], by simp⟩

def upgrade : Disk Nat := fun path =>
  if path = installDir then some setOne.node
  else if path = stagedDir then some setTwo.node
  else none

-- The swap is interrupted between its two renames.
def betweenRenames : List (UpdaterCall × Cut) := [(.swap "1.0.0" 7, ⟨some 2, false⟩)]

-- The same swap is called again after it has completed: the set it installed is set aside, and
-- there is no staged set to move in.
def swappedTwice : List (UpdaterCall × Cut) :=
  [(.swap "1.0.0" 7, ⟨none, false⟩), (.swap "1.0.0" 8, ⟨none, false⟩)]

end BetterParsec
