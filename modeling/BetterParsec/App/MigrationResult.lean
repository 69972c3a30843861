import BetterParsec.App.Migration

set_option autoImplicit false
set_option linter.all false

/-!
# What a migration leaves

The state of the managed root after a migration in which every action is done:
part by part, and for a call of `migrate` from any state.
-/

namespace BetterParsec

namespace Identity

open Faults

-- The backup or the staging area of a target; none is made where nothing is copied.
def areaOf (target : Target) : Option Area :=
  if target = ⟨none, none⟩ then none else some ⟨target, .nil⟩

theorem targetOf_areaOf (target : Target) : targetOf (areaOf target) = target := by
  unfold areaOf
  split
  next empty => exact empty.symm
  next => rfl

-- Only the last write counts.
def Overwrites {T : Type} (write : T → Disk → Disk) : Prop :=
  ∀ later earlier disk, write later (write earlier disk) = write later disk

theorem Overwrites.of {T U : Type} {write : T → Disk → Disk} (overwrites : Overwrites write)
    (place : U → T) : Overwrites fun value => write (place value) :=
  fun _ _ _ => overwrites _ _ _

theorem writeIdentity_overwrites : Overwrites writeIdentity := fun _ _ _ => rfl

theorem writeConfig_overwrites : Overwrites writeConfig := fun _ _ _ => rfl

section Parts

variable {path : String}

theorem removeEntries_faultless {write : Tree → Disk → Disk} (overwrites : Overwrites write)
    (tree : Tree) (disk : Disk) :
    Faultless (removeEntries path write tree) (write tree disk) () (write .nil disk) := by
  induction tree generalizing write with
  | nil => exact .pure () _
  | file name bytes rest ih =>
    have removed : Faultless (action (.remove path) (write rest) : Migrating Unit)
        (write (.file name bytes rest) disk) () (write rest disk) :=
      .action (overwrites _ _ _)
    exact removed.bind (ih overwrites)
  | dir name entries rest below ih =>
    have emptied : Faultless
        (removeEntries path (fun left => write (.dir name left rest)) entries)
        (write (.dir name entries rest) disk) () (write (.dir name .nil rest) disk) :=
      below (overwrites.of fun left => .dir name left rest)
    have removed : Faultless (action (.remove path) (write rest) : Migrating Unit)
        (write (.dir name .nil rest) disk) () (write rest disk) :=
      .action (overwrites _ _ _)
    exact emptied.bind (removed.bind (ih overwrites))

theorem copyEntries_faultless {write : Tree → Disk → Disk} (overwrites : Overwrites write)
    (source : Tree) (disk : Disk) :
    Faultless (copyEntries path write source) (write .nil disk) () (write source disk) := by
  induction source generalizing write with
  | nil => exact .pure () _
  | file name bytes rest ih =>
    have copied : Faultless (action (.copy path) (write (.file name bytes .nil)) : Migrating Unit)
        (write .nil disk) () (write (.file name bytes .nil) disk) :=
      .action (overwrites _ _ _)
    exact copied.bind (ih (overwrites.of fun copied => .file name bytes copied))
  | dir name entries rest below ih =>
    have created : Faultless (action (.mkdir path) (write (.dir name .nil .nil)) : Migrating Unit)
        (write .nil disk) () (write (.dir name .nil .nil) disk) :=
      .action (overwrites _ _ _)
    have filled : Faultless (copyEntries path (fun copied => write (.dir name copied .nil)) entries)
        (write (.dir name .nil .nil) disk) () (write (.dir name entries .nil) disk) :=
      below (overwrites.of fun copied => .dir name copied .nil)
    exact created.bind (filled.bind (ih (overwrites.of fun copied => .dir name entries copied)))

theorem copyDirRecursive_faultless {write : Tree → Disk → Disk} (overwrites : Overwrites write)
    (source : Tree) (disk : Disk) :
    Faultless (copyDirRecursive path write source) disk () (write source disk) :=
  Faultless.bind (.action rfl) (copyEntries_faultless overwrites source disk)

theorem removeIdentity_faultless {write : Option Tree → Disk → Disk}
    (overwrites : Overwrites write) (tree : Option Tree) (disk : Disk) :
    Faultless (removeIdentity path write tree) (write tree disk) () (write none disk) := by
  cases tree with
  | none => exact .pure () _
  | some tree =>
    have emptied : Faultless (removeEntries path (fun left => write (some left)) tree)
        (write (some tree) disk) () (write (some .nil) disk) :=
      removeEntries_faultless (overwrites.of some) tree disk
    exact emptied.bind (.action (overwrites _ _ _))

theorem removeConfig_faultless {write : Option Bytes → Disk → Disk}
    (overwrites : Overwrites write) (bytes : Option Bytes) (disk : Disk) :
    Faultless (removeConfig path (write none) bytes) (write bytes disk) () (write none disk) := by
  cases bytes with
  | none => exact .pure () _
  | some bytes => exact .action (overwrites _ _ _)

-- An area that is written is what is read, and only the last write counts.
structure Slot.Stores (slot : Slot) : Prop where
  get_set : ∀ area disk, slot.get (slot.set area disk) = area
  overwrites : Overwrites slot.set

variable {slot : Slot}

theorem removeArea_faultless (stores : slot.Stores) (area : Option Area) (disk : Disk) :
    Faultless (removeArea slot area) (slot.set area disk) () (slot.set none disk) := by
  cases area with
  | none => exact .pure () _
  | some area =>
    obtain ⟨⟨tree, bytes⟩, other⟩ := area
    have identity : Faultless
        (removeIdentity slot.path (fun left => slot.set (some ⟨⟨left, bytes⟩, other⟩)) tree)
        (slot.set (some ⟨⟨tree, bytes⟩, other⟩) disk) ()
        (slot.set (some ⟨⟨none, bytes⟩, other⟩) disk) :=
      removeIdentity_faultless
        (stores.overwrites.of fun left => some ⟨⟨left, bytes⟩, other⟩) tree disk
    have config : Faultless
        (removeConfig slot.path (slot.set (some ⟨⟨none, none⟩, other⟩)) bytes)
        (slot.set (some ⟨⟨none, bytes⟩, other⟩) disk) ()
        (slot.set (some ⟨⟨none, none⟩, other⟩) disk) :=
      removeConfig_faultless
        (stores.overwrites.of fun left => some ⟨⟨none, left⟩, other⟩) bytes disk
    have entries : Faultless
        (removeEntries slot.path (fun left => slot.set (some ⟨⟨none, none⟩, left⟩)) other)
        (slot.set (some ⟨⟨none, none⟩, other⟩) disk) ()
        (slot.set (some ⟨⟨none, none⟩, .nil⟩) disk) :=
      removeEntries_faultless
        (stores.overwrites.of fun left => some ⟨⟨none, none⟩, left⟩) other disk
    exact identity.bind (config.bind (entries.bind (.action (stores.overwrites _ _ _))))

theorem writeIdentity_set (stores : slot.Stores) (tree : Tree) (area : Area) (disk : Disk) :
    slot.writeIdentity tree (slot.set (some area) disk) =
      slot.set (some ⟨⟨some tree, area.target.config⟩, area.other⟩) disk := by
  rw [Slot.writeIdentity, stores.get_set, stores.overwrites]
  rfl

theorem Slot.writeIdentity_overwrites (stores : slot.Stores) : Overwrites slot.writeIdentity := by
  intro later earlier disk
  rw [Slot.writeIdentity, Slot.writeIdentity, stores.get_set, stores.overwrites]
  rfl

theorem createArea_faultless (stores : slot.Stores) (area : Option Area) (disk : Disk) :
    Faultless (createArea slot) (slot.set area disk) ()
      (slot.set (some (area.getD ⟨⟨none, none⟩, .nil⟩)) disk) := by
  refine .action ?_
  rw [stores.get_set, stores.overwrites]

theorem copyInto_faultless (stores : slot.Stores) (target : Target) (disk : Disk) :
    Faultless (copyInto slot target) (slot.set none disk) () (slot.set (areaOf target) disk) := by
  obtain ⟨tree, bytes⟩ := target
  have identity : Faultless (copyIdentityInto slot tree) (slot.set none disk) ()
      (slot.set (areaOf ⟨tree, none⟩) disk) := by
    cases tree with
    | none => exact .pure () _
    | some tree =>
      refine (createArea_faultless stores none disk).bind ?_
      have copied : Faultless (copyDirRecursive slot.path slot.writeIdentity tree)
          (slot.set (some ⟨⟨none, none⟩, .nil⟩) disk) ()
          (slot.writeIdentity tree (slot.set (some ⟨⟨none, none⟩, .nil⟩) disk)) :=
        copyDirRecursive_faultless (Slot.writeIdentity_overwrites stores) tree _
      rwa [writeIdentity_set stores] at copied
  have config : Faultless (copyConfigInto slot bytes) (slot.set (areaOf ⟨tree, none⟩) disk) ()
      (slot.set (areaOf ⟨tree, bytes⟩) disk) := by
    cases bytes with
    | none => exact .pure () _
    | some bytes =>
      refine (createArea_faultless stores _ disk).bind (.action ?_)
      rw [Slot.writeConfig, stores.get_set, stores.overwrites]
      cases tree <;> rfl
  exact identity.bind config

end Parts

section Calls

theorem backupDir_stores : backupDir.Stores := ⟨fun _ _ => rfl, fun _ _ _ => rfl⟩

theorem stagingDir_stores : stagingDir.Stores := ⟨fun _ _ => rfl, fun _ _ _ => rfl⟩

theorem writeJournal_faultless (phase : Phase) (disk : Disk) :
    Faultless (writeJournal phase) disk () { disk with journal := some phase } :=
  Faultless.bind (.action rfl) (.action rfl)

theorem removeTarget_faultless (disk : Disk) :
    Faultless removeTarget disk () { disk with target := ⟨none, none⟩ } := by
  have identity : Faultless
      (removeIdentity "identity" writeIdentity disk.target.identity) disk ()
      (writeIdentity none disk) :=
    removeIdentity_faultless writeIdentity_overwrites disk.target.identity disk
  have config : Faultless
      (removeConfig "config.json" (writeConfig none) disk.target.config)
      (writeIdentity none disk) () (writeConfig none (writeIdentity none disk)) :=
    removeConfig_faultless writeConfig_overwrites disk.target.config (writeIdentity none disk)
  exact (Faultless.observe Disk.target disk).bind (identity.bind config)

theorem rollback_faultless (disk : Disk) :
    Faultless rollback disk () ⟨targetOf disk.backup, disk.backup, none, none⟩ := by
  obtain ⟨target, backup, staging, journal⟩ := disk
  have cleared : Faultless (removeArea stagingDir staging) ⟨target, backup, staging, journal⟩ ()
      ⟨target, backup, none, journal⟩ :=
    removeArea_faultless stagingDir_stores staging ⟨target, backup, staging, journal⟩
  have removed := removeTarget_faultless ⟨target, backup, none, journal⟩
  have identity : Faultless (restoreIdentity (targetOf backup).identity)
      ⟨⟨none, none⟩, backup, none, journal⟩ ()
      ⟨⟨(targetOf backup).identity, none⟩, backup, none, journal⟩ := by
    cases (targetOf backup).identity with
    | none => exact .pure () _
    | some tree => exact copyDirRecursive_faultless (writeIdentity_overwrites.of some) tree _
  have config : Faultless (restoreConfig (targetOf backup).config)
      ⟨⟨(targetOf backup).identity, none⟩, backup, none, journal⟩ ()
      ⟨targetOf backup, backup, none, journal⟩ := by
    obtain ⟨tree, bytes⟩ := targetOf backup
    cases bytes with
    | none => exact .pure () _
    | some bytes => exact Faultless.bind (.action rfl) (.action rfl)
  refine (Faultless.observe Disk.staging _).bind (cleared.bind (removed.bind ?_))
  refine (Faultless.observe (fun disk : Disk => targetOf disk.backup) _).bind ?_
  exact identity.bind (config.bind (.action rfl))

-- What `recover_on_start` leaves.
def recovered (disk : Disk) : Disk :=
  if disk.journal.isSome then ⟨targetOf disk.backup, disk.backup, none, none⟩ else disk

theorem recoverOnStart_faultless (disk : Disk) :
    Faultless recoverOnStart disk disk.journal.isSome (recovered disk) := by
  refine (Faultless.observe Disk.journal disk).bind ?_
  unfold recovered
  by_cases present : disk.journal.isSome
  · rw [if_pos present, if_pos present, present]
    exact (rollback_faultless disk).bind (.pure true _)
  · rw [if_neg present, if_neg present, Bool.not_eq_true _ |>.mp present]
    exact .pure false _

theorem backUp_faultless (disk : Disk) :
    Faultless backUp disk ()
      { disk with backup := areaOf disk.target, journal := some .backedUp } := by
  have cleared : Faultless (removeArea backupDir disk.backup) disk ()
      { disk with backup := none } := removeArea_faultless backupDir_stores disk.backup disk
  have copied : Faultless (copyInto backupDir disk.target) { disk with backup := none } ()
      { disk with backup := areaOf disk.target } := copyInto_faultless backupDir_stores _ disk
  refine Faultless.bind (.action rfl) ?_
  refine (Faultless.observe Disk.backup disk).bind (cleared.bind ?_)
  refine (Faultless.observe Disk.target _).bind (copied.bind ?_)
  exact writeJournal_faultless .backedUp _

end Calls

section Migrate

variable {hash : Bytes → UInt64} {parses : Bytes → Bool} {source : Target} {files : Nat}

-- The renames leave an empty staging area, or none if nothing was staged.
theorem switch_faultless (backup : Option Area) (journal : Option Phase) :
    ∃ between left,
      Faultless (switch source.identity.isSome "identity dir" switchIdentity)
        ⟨⟨none, none⟩, backup, areaOf source, journal⟩ () between ∧
      Faultless (switch source.config.isSome "server config" switchConfig) between ()
        ⟨source, backup, left, journal⟩ := by
  obtain ⟨tree, bytes⟩ := source
  cases tree with
  | none =>
    cases bytes with
    | none => exact ⟨_, none, .pure () _, .pure () _⟩
    | some bytes => exact ⟨_, some ⟨⟨none, none⟩, .nil⟩, .pure () _, .action rfl⟩
  | some tree =>
    cases bytes with
    | none => exact ⟨_, some ⟨⟨none, none⟩, .nil⟩, .action rfl, .pure () _⟩
    | some bytes => exact ⟨_, some ⟨⟨none, none⟩, .nil⟩, .action rfl, .action rfl⟩

theorem moveIn_faultless (verified : verify hash parses source source = .ok files) (disk : Disk) :
    Faultless (moveIn hash parses source) disk ⟨files⟩ ⟨source, disk.backup, none, none⟩ := by
  obtain ⟨target, backup, staging, journal⟩ := disk
  have cleared : Faultless (removeArea stagingDir staging) ⟨target, backup, staging, journal⟩ ()
      ⟨target, backup, none, journal⟩ :=
    removeArea_faultless stagingDir_stores staging ⟨target, backup, staging, journal⟩
  have copied : Faultless (copyInto stagingDir source) ⟨target, backup, none, journal⟩ ()
      ⟨target, backup, areaOf source, journal⟩ :=
    copyInto_faultless stagingDir_stores source ⟨target, backup, none, journal⟩
  have checked : Faultless (check (verify hash parses source (targetOf (areaOf source))))
      (⟨target, backup, areaOf source, some .staged⟩ : Disk) files
      ⟨target, backup, areaOf source, some .staged⟩ :=
    .check (by rw [targetOf_areaOf, verified]) _
  obtain ⟨between, left, identity, config⟩ := switch_faultless backup (some .verified)
  have emptied : Faultless (removeArea stagingDir left) ⟨source, backup, left, some .verified⟩ ()
      ⟨source, backup, none, some .verified⟩ :=
    removeArea_faultless stagingDir_stores left ⟨source, backup, left, some .verified⟩
  refine (Faultless.observe Disk.staging _).bind (cleared.bind (copied.bind ?_))
  refine (writeJournal_faultless .staged _).bind ?_
  refine (Faultless.observe (fun disk : Disk => targetOf disk.staging) _).bind ?_
  refine checked.bind ((writeJournal_faultless .verified _).bind ?_)
  refine (removeTarget_faultless _).bind ?_
  rw [targetOf_areaOf]
  refine identity.bind (config.bind ?_)
  refine (Faultless.observe Disk.staging _).bind (emptied.bind ?_)
  exact Faultless.bind (.action rfl) (.pure _ _)

-- Every action of the call is done.
def CallFaults.Succeed (faults : CallFaults) : Prop :=
  ∀ outcome ∈ faults.recovery ++ faults.backUp ++ faults.moveIn, outcome = .done

theorem runMigration_faultless {faults : CallFaults} (succeed : faults.Succeed)
    (verified : verify hash parses source source = .ok files) (disk : Disk) :
    Faultless (runMigration hash parses source faults) disk ⟨files⟩
      ⟨source, areaOf disk.target, none, none⟩ := by
  have backed : Faultless (supply faults.backUp backUp) disk () _ :=
    .supply (fun outcome member => succeed outcome (by simp [member])) (backUp_faultless disk)
  refine backed.bind (.supply (fun outcome member => succeed outcome (by simp [member])) ?_)
  exact moveIn_faultless verified _

/-- A call in which every action is done and verification passes recovers first; without a source
nothing more is done, with one the destination is the source and the backup is the destination as it
was then. -/
theorem migrate_faultless {faults : CallFaults} (succeed : faults.Succeed)
    (verified : verify hash parses source source = .ok files) (disk : Disk) :
    Faultless (migrate hash parses source faults) disk (.completed ⟨files⟩)
      (if source = ⟨none, none⟩ then recovered disk
        else ⟨source, areaOf (recovered disk).target, none, none⟩) := by
  have first : Faultless (settle (supply faults.recovery recoverOnStart)) disk
      (.ok disk.journal.isSome) (recovered disk) :=
    .settle (.supply (fun outcome member => succeed outcome (by simp [member]))
      (recoverOnStart_faultless disk))
  refine first.bind ?_
  by_cases missing : source = ⟨none, none⟩
  · subst missing
    cases verified
    exact .pure _ _
  · have present : (source.identity.isNone && source.config.isNone) = false := by
      obtain ⟨tree, bytes⟩ := source
      cases tree with
      | some tree => rfl
      | none =>
        cases bytes with
        | some bytes => rfl
        | none => exact absurd rfl missing
    simp only [present, if_neg missing]
    exact (runMigration_faultless succeed verified _).settle.bind (.pure _ _)

-- What a migration leaves where the destination was `prior`: a part with a source is replaced, and
-- one that is missing in both stays missing.
structure Replaced (source prior : Target) (disk : Disk) : Prop where
  identity : source.identity.isSome ∨ prior.identity = none →
    disk.target.identity = source.identity
  config : source.config.isSome ∨ prior.config = none → disk.target.config = source.config
  journal : disk.journal = none
  staging : disk.staging = none
  backup : disk.backup = areaOf prior

/-- Every call in which every action is done and verification passes is completed: without a source
it recovers and leaves the rest as it is, with one it replaces the parts that have a source and
keeps the destination that the recovery left, and nothing else, as the backup. -/
theorem migrate_replaces_sources {faults : CallFaults} (succeed : faults.Succeed)
    (verified : verify hash parses source source = .ok files) (disk : Disk) :
    (execute (migrate hash parses source faults) disk).1 = .ok (.completed ⟨files⟩) ∧
      (source = ⟨none, none⟩ →
        (execute (migrate hash parses source faults) disk).2.state = recovered disk) ∧
      (source ≠ ⟨none, none⟩ → Replaced source (recovered disk).target
        (execute (migrate hash parses source faults) disk).2.state) := by
  obtain ⟨completed, left⟩ := (migrate_faultless succeed verified disk).execute
  rw [left]
  refine ⟨completed, fun missing => if_pos missing, fun present => ?_⟩
  rw [if_neg present]
  exact ⟨fun _ => rfl, fun _ => rfl, rfl, rfl, rfl⟩

theorem migrate_replaces_sources_paired :
    CallFaults.Succeed ⟨[], [.done], [.done, .done], []⟩ ∧
      verify (fun bytes => bytes.length.toUInt64) (fun _ => true) oldSource oldSource = .ok 2 ∧
      oldSource ≠ ⟨none, none⟩ ∧
      Replaced oldSource (recovered pairedDisk).target
        (execute (migrate (fun bytes => bytes.length.toUInt64) (fun _ => true) oldSource
          ⟨[], [.done], [.done, .done], []⟩) pairedDisk).2.state := by
  have succeed : CallFaults.Succeed ⟨[], [.done], [.done, .done], []⟩ := by
    unfold CallFaults.Succeed
    decide
  have verified : verify (fun bytes => bytes.length.toUInt64) (fun _ => true) oldSource oldSource =
      .ok 2 := by
    simp [verify, verifyDirMatches, verifyFiles, verifyDirs, verifyFileMatches, oldSource,
      Tree.file?, Tree.dir?]
    rfl
  have present : oldSource ≠ ⟨none, none⟩ := by decide
  exact ⟨succeed, verified, present,
    (migrate_replaces_sources succeed verified pairedDisk).2.2 present⟩

-- What a migration would leave that replaces only what it has a source for.
structure ReplacedOnly (source prior : Target) (disk : Disk) : Prop where
  identity : disk.target.identity = source.identity.or prior.identity
  config : disk.target.config = source.config.or prior.config
  journal : disk.journal = none
  staging : disk.staging = none
  backup : disk.backup = areaOf prior

def configSource : Target := ⟨none, some [123, 125]⟩

-- Without a source there is no backup; with a configuration only, the identity tree is removed.
theorem migrate_not_replaces_only :
    ¬ (∀ source files disk,
        verify (fun bytes => bytes.length.toUInt64) (fun _ => true) source source = .ok files →
        ReplacedOnly source disk.target
          (execute (migrate (fun bytes => bytes.length.toUInt64) (fun _ => true) source
            ⟨[], [], [], []⟩) disk).2.state) ∧
      (execute (migrate (fun bytes => bytes.length.toUInt64) (fun _ => true) ⟨none, none⟩
        ⟨[], [], [], []⟩) pairedDisk).2.state.backup = none ∧
      (execute (migrate (fun bytes => bytes.length.toUInt64) (fun _ => true) configSource
        ⟨[], [], [], []⟩) pairedDisk).2.state.target.identity = none := by
  refine ⟨fun every => ?_, rfl, ?_⟩
  · exact absurd (every ⟨none, none⟩ 0 pairedDisk rfl).backup (by decide)
  · have succeed : CallFaults.Succeed ⟨[], [], [], []⟩ := by simp [CallFaults.Succeed]
    have verified : verify (fun bytes => bytes.length.toUInt64) (fun _ => true) configSource
        configSource = .ok 1 := by
      simp [verify, verifyFileMatches, configSource]
      rfl
    rw [(migrate_faultless succeed verified pairedDisk).execute.2]
    rfl

end Migrate

end Identity

end BetterParsec
