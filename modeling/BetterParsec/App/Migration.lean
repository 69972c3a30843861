import BetterParsec.App.Identity

set_option autoImplicit false
set_option linter.all false

/-!
# A paired install is never lost

At all times either no journal is there and the destination is good, or a journal
is there and the backup is. Every part of a migration keeps this while it runs, as
long as no action fails before the journal of the backup is written.
-/

namespace BetterParsec

namespace Identity

open Faults

section Parts

variable {allowed : Outcome → Prop} {always failed keeps : Disk → Prop} {path : String}

-- What a part of the program does not touch, in a state that may be failed in and passed.
structure Untouched (allowed : Outcome → Prop) (always failed keeps : Disk → Prop) : Prop where
  passes : ∀ disk, keeps disk → always disk
  fails : allowed .fail → ∀ disk, keeps disk → failed disk

theorem Untouched.mono (untouched : Untouched allowed always failed keeps) {more : Disk → Prop}
    (implied : ∀ disk, more disk → keeps disk) : Untouched allowed always failed more :=
  ⟨fun disk held => untouched.passes disk (implied disk held),
    fun may disk held => untouched.fails may disk (implied disk held)⟩

theorem Untouched.action (untouched : Untouched allowed always failed keeps)
    {pre post : Disk → Prop} {error : MigrationError} {act : Disk → Disk}
    (before : ∀ disk, pre disk → keeps disk) (after : ∀ disk, post disk → keeps disk)
    (does : ∀ disk, pre disk → post (act disk)) :
    Triple allowed always failed pre (action error act) fun _ => post :=
  Triple.action
    (fun disk start => ⟨does disk start, untouched.passes _ (after _ (does disk start))⟩)
    fun may disk start => untouched.fails may disk (before disk start)

theorem removeEntries_triple (untouched : Untouched allowed always failed keeps)
    {write : Tree → Disk → Disk} (stable : ∀ tree disk, keeps disk → keeps (write tree disk))
    (tree : Tree) :
    Triple allowed always failed keeps (removeEntries path write tree) fun _ => keeps := by
  induction tree generalizing write with
  | nil => exact Triple.pure () fun _ start => start
  | file name bytes rest ih =>
    refine Triple.bind (untouched.action (fun _ => id) (fun _ => id) (stable rest)) fun _ => ?_
    exact ih stable
  | dir name entries rest below ih =>
    refine Triple.bind (below fun left => stable _) fun _ => ?_
    refine Triple.bind (untouched.action (fun _ => id) (fun _ => id) (stable rest)) fun _ => ?_
    exact ih stable

theorem copyEntries_triple (untouched : Untouched allowed always failed keeps)
    {write : Tree → Disk → Disk} (stable : ∀ tree disk, keeps disk → keeps (write tree disk))
    (source : Tree) :
    Triple allowed always failed (fun disk => ∃ before, keeps before ∧ disk = write .nil before)
      (copyEntries path write source)
      fun _ disk => ∃ before, keeps before ∧ disk = write source before := by
  have written : ∀ {write : Tree → Disk → Disk},
      (∀ tree disk, keeps disk → keeps (write tree disk)) → ∀ tree disk,
      (∃ before, keeps before ∧ disk = write tree before) → keeps disk := by
    rintro write stable tree _ ⟨before, held, rfl⟩
    exact stable tree before held
  induction source generalizing write with
  | nil => exact Triple.pure () fun _ start => start
  | file name bytes rest ih =>
    refine Triple.bind (untouched.action (written stable .nil) (written stable _)
      fun disk start => ⟨disk, written stable .nil disk start, rfl⟩) fun _ => ?_
    exact ih fun copied => stable _
  | dir name entries rest below ih =>
    refine Triple.bind (untouched.action (written stable .nil) (written stable _)
      fun disk start => ⟨disk, written stable .nil disk start, rfl⟩) fun _ => ?_
    refine Triple.bind (below fun copied => stable (.dir name copied .nil)) fun _ => ?_
    exact ih fun copied => stable (.dir name entries copied)

theorem copyDirRecursive_triple (untouched : Untouched allowed always failed keeps)
    {write : Tree → Disk → Disk} (stable : ∀ tree disk, keeps disk → keeps (write tree disk))
    (source : Tree) :
    Triple allowed always failed keeps (copyDirRecursive path write source)
      fun _ disk => ∃ before, keeps before ∧ disk = write source before := by
  refine Triple.bind (untouched.action (fun _ => id) ?_ fun disk start => ⟨disk, start, rfl⟩)
    fun _ => copyEntries_triple untouched stable source
  rintro _ ⟨before, held, rfl⟩
  exact stable .nil before held

-- What a program that changes one place keeps of the others.
structure Slot.Lawful (slot : Slot) (rest : Disk → Prop) : Prop where
  get_set : ∀ area disk, slot.get (slot.set area disk) = area
  stable : ∀ area disk, rest disk → rest (slot.set area disk)

variable {rest : Disk → Prop} {slot : Slot}

theorem removeIdentity_triple (untouched : Untouched allowed always failed keeps)
    {write : Option Tree → Disk → Disk}
    (stable : ∀ tree disk, keeps disk → keeps (write tree disk)) (tree : Option Tree) :
    Triple allowed always failed keeps (removeIdentity path write tree) fun _ disk =>
      keeps disk ∧ (tree.isSome → ∃ before, disk = write none before) := by
  cases tree with
  | none => exact Triple.pure () fun _ start => ⟨start, by simp⟩
  | some tree =>
    refine Triple.bind (removeEntries_triple untouched (fun left => stable (some left)) tree)
      fun _ => ?_
    exact untouched.action (fun _ => id) (fun _ => And.left)
      fun disk start => ⟨stable none disk start, fun _ => ⟨disk, rfl⟩⟩

theorem removeConfig_triple (untouched : Untouched allowed always failed keeps)
    {gone : Disk → Disk} (stable : ∀ disk, keeps disk → keeps (gone disk))
    (bytes : Option Bytes) :
    Triple allowed always failed keeps (removeConfig path gone bytes) fun _ disk =>
      keeps disk ∧ (bytes.isSome → ∃ before, disk = gone before) := by
  cases bytes with
  | none => exact Triple.pure () fun _ start => ⟨start, by simp⟩
  | some bytes =>
    exact untouched.action (fun _ => id) (fun _ => And.left)
      fun disk start => ⟨stable disk start, fun _ => ⟨disk, rfl⟩⟩

theorem removeArea_triple (lawful : slot.Lawful rest)
    (untouched : Untouched allowed always failed rest) (area : Option Area) :
    Triple allowed always failed (fun disk => rest disk ∧ slot.get disk = area)
      (removeArea slot area) fun _ disk => rest disk ∧ slot.get disk = none := by
  cases area with
  | none => exact Triple.pure () fun _ start => start
  | some area =>
    obtain ⟨target, other⟩ := area
    refine Triple.bind (Triple.weaken (removeIdentity_triple untouched
      (fun left => lawful.stable _) target.identity) fun _ => And.left) fun _ => ?_
    refine Triple.bind (Triple.weaken (removeConfig_triple untouched
      (fun disk => lawful.stable _ disk) target.config) fun _ => And.left) fun _ => ?_
    refine Triple.bind (Triple.weaken (removeEntries_triple untouched
      (fun left => lawful.stable _) other) fun _ => And.left) fun _ => ?_
    exact untouched.action (fun _ => id) (fun _ => And.left)
      fun disk start => ⟨lawful.stable none disk start, lawful.get_set none disk⟩

-- The area holds this target, and what the program does not touch is as it was.
def Holding (slot : Slot) (rest : Disk → Prop) (target : Target) (disk : Disk) : Prop :=
  rest disk ∧ targetOf (slot.get disk) = target

theorem createArea_triple (lawful : slot.Lawful rest)
    (untouched : Untouched allowed always failed rest) (target : Target) :
    Triple allowed always failed (Holding slot rest target) (createArea slot)
      fun _ => Holding slot rest target := by
  refine untouched.action (fun _ => And.left) (fun _ => And.left) ?_
  rintro disk ⟨held, holds⟩
  refine ⟨lawful.stable _ disk held, ?_⟩
  rw [lawful.get_set]
  cases area : slot.get disk with
  | none =>
    rw [area] at holds
    exact holds
  | some area' =>
    rw [area] at holds
    exact holds

theorem targetOf_writeIdentity (lawful : slot.Lawful rest) (tree : Tree) (disk : Disk) :
    targetOf (slot.get (slot.writeIdentity tree disk)) =
      ⟨some tree, (targetOf (slot.get disk)).config⟩ := by
  rw [Slot.writeIdentity, lawful.get_set]
  cases slot.get disk <;> rfl

theorem targetOf_writeConfig (lawful : slot.Lawful rest) (bytes : Bytes) (disk : Disk) :
    targetOf (slot.get (slot.writeConfig bytes disk)) =
      ⟨(targetOf (slot.get disk)).identity, some bytes⟩ := by
  rw [Slot.writeConfig, lawful.get_set]
  cases slot.get disk <;> rfl

theorem copyIdentityInto_triple (lawful : slot.Lawful rest)
    (untouched : Untouched allowed always failed rest) (tree : Option Tree) :
    Triple allowed always failed (Holding slot rest ⟨none, none⟩) (copyIdentityInto slot tree)
      fun _ => Holding slot rest ⟨tree, none⟩ := by
  cases tree with
  | none => exact Triple.pure () fun _ start => start
  | some tree =>
    refine Triple.bind (createArea_triple lawful untouched ⟨none, none⟩) fun _ => ?_
    -- While the tree is copied, the area holds no configuration.
    let empty (disk : Disk) : Prop := rest disk ∧ (targetOf (slot.get disk)).config = none
    have still : Untouched allowed always failed empty := untouched.mono fun _ => And.left
    have stable : ∀ tree disk, empty disk → empty (slot.writeIdentity tree disk) := by
      rintro tree disk ⟨held, none⟩
      refine ⟨lawful.stable _ disk held, ?_⟩
      rw [targetOf_writeIdentity lawful, none]
    refine Triple.relax (Triple.weaken (copyDirRecursive_triple still stable tree) ?_) ?_
    · rintro disk ⟨held, holds⟩
      exact ⟨held, by rw [holds]⟩
    · rintro _ _ ⟨before, ⟨held, none⟩, rfl⟩
      refine ⟨lawful.stable _ before held, ?_⟩
      rw [targetOf_writeIdentity lawful, none]

theorem copyConfigInto_triple (lawful : slot.Lawful rest)
    (untouched : Untouched allowed always failed rest) (tree : Option Tree)
    (bytes : Option Bytes) :
    Triple allowed always failed (Holding slot rest ⟨tree, none⟩) (copyConfigInto slot bytes)
      fun _ => Holding slot rest ⟨tree, bytes⟩ := by
  cases bytes with
  | none => exact Triple.pure () fun _ start => start
  | some bytes =>
    refine Triple.bind (createArea_triple lawful untouched ⟨tree, none⟩) fun _ => ?_
    refine untouched.action (fun _ => And.left) (fun _ => And.left) ?_
    rintro disk ⟨held, holds⟩
    refine ⟨lawful.stable _ disk held, ?_⟩
    rw [targetOf_writeConfig lawful, holds]

theorem copyInto_triple (lawful : slot.Lawful rest)
    (untouched : Untouched allowed always failed rest) (target : Target) :
    Triple allowed always failed (fun disk => rest disk ∧ slot.get disk = none)
      (copyInto slot target) fun _ => Holding slot rest target := by
  refine Triple.weaken (Triple.bind (copyIdentityInto_triple lawful untouched target.identity)
    fun _ => copyConfigInto_triple lawful untouched target.identity target.config) ?_
  rintro disk ⟨held, absent⟩
  exact ⟨held, by rw [absent]; rfl⟩

-- Where the destination does not matter.
def Elsewhere (rest : Disk → Prop) : Prop :=
  ∀ target disk, rest disk → rest { disk with target := target }

-- The destination is this target, and what the program does not touch is as it was.
def At (rest : Disk → Prop) (target : Target) (disk : Disk) : Prop :=
  rest disk ∧ disk.target = target

theorem removeTarget_identity (elsewhere : Elsewhere rest)
    (untouched : Untouched allowed always failed rest) (tree : Option Tree)
    (bytes : Option Bytes) :
    Triple allowed always failed (At rest ⟨tree, bytes⟩) (removeIdentity path writeIdentity tree)
      fun _ => At rest ⟨none, bytes⟩ := by
  cases tree with
  | none => exact Triple.pure () fun _ start => start
  | some tree =>
    let config (disk : Disk) : Prop := rest disk ∧ disk.target.config = bytes
    have still : Untouched allowed always failed config := untouched.mono fun _ => And.left
    have stable : ∀ tree disk, config disk → config (writeIdentity tree disk) := fun tree disk held =>
      ⟨elsewhere _ disk held.1, held.2⟩
    refine Triple.relax (Triple.weaken (removeIdentity_triple still stable (some tree)) ?_) ?_
    · rintro disk ⟨held, same⟩
      exact ⟨held, by rw [same]⟩
    · rintro _ disk ⟨⟨held, same⟩, gone⟩
      obtain ⟨before, rfl⟩ := gone rfl
      exact ⟨held, congrArg (Target.mk none) same⟩

theorem removeTarget_config (elsewhere : Elsewhere rest)
    (untouched : Untouched allowed always failed rest) (bytes : Option Bytes) :
    Triple allowed always failed (At rest ⟨none, bytes⟩)
      (removeConfig path (writeConfig none) bytes) fun _ => At rest ⟨none, none⟩ := by
  cases bytes with
  | none => exact Triple.pure () fun _ start => start
  | some bytes =>
    refine untouched.action (fun _ => And.left) (fun _ => And.left) ?_
    rintro disk ⟨held, same⟩
    refine ⟨elsewhere _ disk held, ?_⟩
    simp only [writeConfig, same]

theorem removeTarget_triple (elsewhere : Elsewhere rest)
    (untouched : Untouched allowed always failed rest) :
    Triple allowed always failed rest removeTarget fun _ => At rest ⟨none, none⟩ := by
  refine Triple.bind (Triple.observe Disk.target) fun target => ?_
  refine Triple.bind (removeTarget_identity elsewhere untouched target.identity target.config)
    fun _ => removeTarget_config elsewhere untouched target.config

theorem createRoot_triple (untouched : Untouched allowed always failed keeps) :
    Triple allowed always failed keeps createRoot fun _ => keeps :=
  untouched.action (fun _ => id) (fun _ => id) fun _ start => start

theorem restoreIdentity_triple (elsewhere : Elsewhere rest)
    (untouched : Untouched allowed always failed rest) (tree : Option Tree) :
    Triple allowed always failed (At rest ⟨none, none⟩) (restoreIdentity tree)
      fun _ => At rest ⟨tree, none⟩ := by
  cases tree with
  | none => exact Triple.pure () fun _ start => start
  | some tree =>
    let config (disk : Disk) : Prop := rest disk ∧ disk.target.config = none
    have still : Untouched allowed always failed config := untouched.mono fun _ => And.left
    have stable : ∀ tree disk, config disk → config (writeIdentity (some tree) disk) :=
      fun tree disk held => ⟨elsewhere _ disk held.1, held.2⟩
    refine Triple.relax (Triple.weaken (copyDirRecursive_triple still stable tree) ?_) ?_
    · rintro disk ⟨held, same⟩
      exact ⟨held, by rw [same]⟩
    · rintro _ _ ⟨before, ⟨held, same⟩, rfl⟩
      exact ⟨elsewhere _ before held, congrArg (Target.mk (some tree)) same⟩

theorem restoreConfig_triple (elsewhere : Elsewhere rest)
    (untouched : Untouched allowed always failed rest) (tree : Option Tree)
    (bytes : Option Bytes) :
    Triple allowed always failed (At rest ⟨tree, none⟩) (restoreConfig bytes)
      fun _ => At rest ⟨tree, bytes⟩ := by
  cases bytes with
  | none => exact Triple.pure () fun _ start => start
  | some bytes =>
    refine Triple.bind (createRoot_triple (untouched.mono fun _ => And.left)) fun _ => ?_
    refine untouched.action (fun _ => And.left) (fun _ => And.left) ?_
    rintro disk ⟨held, same⟩
    refine ⟨elsewhere _ disk held, ?_⟩
    simp only [writeConfig, same]

end Parts

section Calls

variable {allowed : Outcome → Prop} {good new : Target → Prop}

-- Without a journal the destination is good, with one the backup is.
def Protected (atDestination inBackup : Target → Prop) (disk : Disk) : Prop :=
  (disk.journal = none → atDestination disk.target) ∧
    (disk.journal.isSome → inBackup (targetOf disk.backup))

-- A journal is there, and the backup is this target.
def BackedUp (target : Target) (disk : Disk) : Prop :=
  disk.journal.isSome ∧ targetOf disk.backup = target

-- No journal is there, and the destination is this target.
def Idle (target : Target) (disk : Disk) : Prop :=
  disk.journal = none ∧ disk.target = target

theorem BackedUp.protected {target : Target} (fine : good target) {disk : Disk}
    (backed : BackedUp target disk) : Protected new good disk := by
  refine ⟨fun none => ?_, fun _ => backed.2 ▸ fine⟩
  have present := backed.1
  simp [none] at present

theorem Idle.protected {target : Target} (fine : new target) {disk : Disk}
    (idle : Idle target disk) : Protected new good disk := by
  refine ⟨fun _ => idle.2 ▸ fine, fun present => ?_⟩
  simp [idle.1] at present

theorem untouched_backedUp {target : Target} (fine : good target) {failed : Disk → Prop}
    (safe : ∀ disk, BackedUp target disk → failed disk) :
    Untouched allowed (Protected new good) failed (BackedUp target) :=
  ⟨fun _ backed => backed.protected fine, fun _ => safe⟩

theorem lawful_staging {rest : Disk → Prop}
    (stable : ∀ area disk, rest disk → rest { disk with staging := area }) :
    stagingDir.Lawful rest :=
  ⟨fun _ _ => rfl, stable⟩

theorem elsewhere_backedUp (target : Target) : Elsewhere (BackedUp target) :=
  fun _ _ backed => backed

theorem rollback_triple {target : Target} (fine : good target) (within : new target)
    {failed : Disk → Prop} (safe : ∀ disk, BackedUp target disk → failed disk) :
    Triple allowed (Protected new good) failed (BackedUp target) rollback fun _ => Idle target := by
  have untouched : Untouched allowed (Protected new good) failed (BackedUp target) :=
    untouched_backedUp fine safe
  have elsewhere := elsewhere_backedUp target
  refine Triple.bind (Triple.observe Disk.staging) fun staging => ?_
  refine Triple.bind (removeArea_triple (lawful_staging fun _ _ backed => backed) untouched staging)
    fun _ => ?_
  refine Triple.bind (Triple.weaken (removeTarget_triple elsewhere untouched) fun _ => And.left)
    fun _ => ?_
  refine Triple.bind (Triple.observe fun disk : Disk => targetOf disk.backup) fun backup => ?_
  refine Triple.assume (fun disk start => start.2.symm.trans start.1.1.2) fun same => ?_
  subst same
  refine Triple.bind (Triple.weaken (restoreIdentity_triple elsewhere untouched backup.identity)
    fun _ => And.left) fun _ => ?_
  refine Triple.bind (restoreConfig_triple elsewhere untouched backup.identity backup.config)
    fun _ => ?_
  refine Triple.action ?_ fun _ disk start => safe disk start.1
  rintro disk ⟨-, restored⟩
  have idle : Idle backup { disk with journal := none } := ⟨rfl, restored⟩
  exact ⟨idle, idle.protected within⟩

-- The destination is good and no journal is there.
def Rested (good : Target → Prop) (disk : Disk) : Prop :=
  disk.journal = none ∧ good disk.target

-- A journal is there, and the backup is good.
def Journalled (good : Target → Prop) (disk : Disk) : Prop :=
  ∃ target, good target ∧ BackedUp target disk

theorem rollback_rests (within : ∀ target, good target → new target) :
    Triple allowed (Protected new good) (Protected good good) (Journalled good) rollback
      fun _ => Rested good := by
  refine Triple.choose fun target => Triple.assume (fun _ => And.left) fun fine => ?_
  refine Triple.relax (Triple.weaken (rollback_triple fine (within target fine) ?_)
    fun _ => And.right) ?_
  · exact fun _ backed => backed.protected fine
  · exact fun _ disk idle => ⟨idle.1, idle.2 ▸ fine⟩

theorem recoverOnStart_triple (within : ∀ target, good target → new target) :
    Triple allowed (Protected new good) (Protected good good) (Protected good good) recoverOnStart
      fun _ => Rested good := by
  refine Triple.bind (Triple.observe Disk.journal) fun journal => ?_
  refine Triple.ite (fun present => ?_) fun absent => ?_
  · refine Triple.bind (Triple.weaken (rollback_rests within) ?_) fun _ =>
      Triple.pure true fun _ => id
    rintro disk ⟨⟨-, backed⟩, rfl⟩
    exact ⟨_, backed present, present, rfl⟩
  · refine Triple.pure false ?_
    rintro disk ⟨⟨idle, -⟩, rfl⟩
    have none : disk.journal = none := by simpa using absent
    exact ⟨none, idle none⟩

theorem writeJournal_triple {target : Target} (fine : good target) {failed keeps : Disk → Prop}
    (untouched : Untouched allowed (Protected new good) failed keeps) {phase : Phase}
    {post : Disk → Prop} (written : ∀ disk, keeps disk → post { disk with journal := some phase })
    (backed : ∀ disk, post disk → BackedUp target disk) :
    Triple allowed (Protected new good) failed keeps (writeJournal phase) fun _ => post := by
  refine Triple.bind (createRoot_triple untouched) fun _ => ?_
  refine Triple.action (fun disk start => ⟨written disk start, ?_⟩) untouched.fails
  exact (backed _ (written disk start)).protected fine

-- Every failure of an action of this part would be one without a journal.
theorem backUp_triple {target : Target} (fine : good target) (within : new target)
    {failed : Disk → Prop} :
    Triple (· ≠ .fail) (Protected new good) failed (Idle target) backUp
      fun _ => BackedUp target := by
  have untouched : Untouched (· ≠ .fail) (Protected new good) failed (Idle target) :=
    ⟨fun _ idle => idle.protected within, fun may => absurd rfl may⟩
  have lawful : backupDir.Lawful (Idle target) := ⟨fun _ _ => rfl, fun _ _ idle => idle⟩
  refine Triple.bind (createRoot_triple untouched) fun _ => ?_
  refine Triple.bind (Triple.observe Disk.backup) fun backup => ?_
  refine Triple.bind (removeArea_triple lawful untouched backup) fun _ => ?_
  refine Triple.bind (Triple.observe Disk.target) fun found => ?_
  refine Triple.assume (fun disk start => start.2.symm.trans start.1.1.2) fun same => ?_
  subst same
  refine Triple.bind (Triple.weaken (copyInto_triple lawful untouched found) fun _ => And.left)
    fun _ => ?_
  exact writeJournal_triple fine (untouched.mono fun _ => And.left)
    (fun disk held => ⟨rfl, held.2⟩) fun _ backed => backed

section MoveIn

variable (hash : Bytes → UInt64) (parses : Bytes → Bool) {source target : Target}

-- The identity tree is switched in, the configuration is still staged.
def Between (target source : Target) (disk : Disk) : Prop :=
  At (BackedUp target) ⟨source.identity, none⟩ disk ∧
    (targetOf disk.staging).config = source.config

theorem switchIdentity_triple {failed : Disk → Prop}
    (untouched : Untouched allowed (Protected new good) failed (BackedUp target)) (what : String) :
    Triple allowed (Protected new good) failed
      (At (Holding stagingDir (BackedUp target) source) ⟨none, none⟩)
      (switch source.identity.isSome what switchIdentity) fun _ => Between target source := by
  refine Triple.ite (fun staged => ?_) fun absent => ?_
  · refine untouched.action (fun _ start => start.1.1) (fun _ between => between.1.1) ?_
    rintro disk ⟨⟨backed, holds⟩, empty⟩
    change targetOf disk.staging = source at holds
    obtain ⟨identity, config⟩ := source
    obtain ⟨tree, rfl⟩ := Option.isSome_iff_exists.mp staged
    cases area : disk.staging with
    | none => simp [area, targetOf] at holds
    | some staging =>
      obtain ⟨found, other⟩ := staging
      rw [area] at holds
      obtain rfl : found = ⟨some tree, config⟩ := holds
      have switched : switchIdentity disk =
          { writeIdentity (some tree) disk with staging := some ⟨⟨none, config⟩, other⟩ } := by
        rw [switchIdentity, area]
      rw [switched]
      exact ⟨⟨backed, by simp only [writeIdentity, empty]⟩, rfl⟩
  · refine Triple.pure () ?_
    rintro disk ⟨⟨backed, holds⟩, empty⟩
    have none : source.identity = none := by simpa using absent
    exact ⟨⟨backed, by rw [empty, none]⟩, congrArg Target.config holds⟩

theorem switchConfig_triple {failed : Disk → Prop}
    (untouched : Untouched allowed (Protected new good) failed (BackedUp target)) (what : String) :
    Triple allowed (Protected new good) failed (Between target source)
      (switch source.config.isSome what switchConfig) fun _ => At (BackedUp target) source := by
  refine Triple.ite (fun staged => ?_) fun absent => ?_
  · refine untouched.action (fun _ between => between.1.1) (fun _ => And.left) ?_
    rintro disk ⟨⟨backed, moved⟩, left⟩
    obtain ⟨identity, config⟩ := source
    obtain ⟨bytes, rfl⟩ := Option.isSome_iff_exists.mp staged
    cases area : disk.staging with
    | none => simp [area, targetOf] at left
    | some staging =>
      obtain ⟨⟨tree, found⟩, other⟩ := staging
      rw [area] at left
      obtain rfl : found = some bytes := left
      have switched : switchConfig disk =
          { writeConfig (some bytes) disk with staging := some ⟨⟨tree, none⟩, other⟩ } := by
        rw [switchConfig, area]
      rw [switched]
      exact ⟨backed, by simp only [writeConfig, moved]⟩
  · refine Triple.pure () ?_
    rintro disk ⟨⟨backed, moved⟩, -⟩
    have none : source.config = none := by simpa using absent
    exact ⟨backed, by rw [moved, ← none]⟩

theorem moveIn_triple (fine : good target) (arrives : new source) {failed : Disk → Prop}
    (safe : ∀ disk, BackedUp target disk → failed disk) :
    Triple allowed (Protected new good) failed (BackedUp target) (moveIn hash parses source)
      fun _ => Idle source := by
  have untouched : Untouched allowed (Protected new good) failed (BackedUp target) :=
    untouched_backedUp fine safe
  have holding : Untouched allowed (Protected new good) failed
      (Holding stagingDir (BackedUp target) source) := untouched.mono fun _ => And.left
  have journalled : ∀ phase, Triple allowed (Protected new good) failed
      (Holding stagingDir (BackedUp target) source) (writeJournal phase)
      fun _ => Holding stagingDir (BackedUp target) source := by
    intro phase
    refine writeJournal_triple fine holding (fun disk held => ?_) fun _ => And.left
    exact ⟨⟨rfl, held.1.2⟩, held.2⟩
  refine Triple.bind (Triple.observe Disk.staging) fun staging => ?_
  refine Triple.bind (removeArea_triple (lawful_staging fun _ _ backed => backed) untouched staging)
    fun _ => ?_
  refine Triple.bind (copyInto_triple (lawful_staging fun _ _ backed => backed) untouched source)
    fun _ => ?_
  refine Triple.bind (journalled .staged) fun _ => ?_
  refine Triple.bind (Triple.observe fun disk : Disk => targetOf disk.staging) fun staged => ?_
  refine Triple.assume (fun disk start => start.2.symm.trans start.1.2) fun same => ?_
  subst same
  refine Triple.bind (Triple.weaken (Triple.check _ fun disk held => safe disk held.1)
    fun _ => And.left) fun filesMigrated => ?_
  refine Triple.bind (journalled .verified) fun _ => ?_
  refine Triple.bind (removeTarget_triple (fun _ _ held => held) holding) fun _ => ?_
  refine Triple.bind (switchIdentity_triple untouched _) fun _ => ?_
  refine Triple.bind (switchConfig_triple untouched _) fun _ => ?_
  refine Triple.bind (Triple.observe Disk.staging) fun left => ?_
  refine Triple.bind (removeArea_triple (lawful_staging fun _ _ held => held)
    (untouched.mono fun _ => And.left) left) fun _ => ?_
  refine Triple.bind ?_ fun _ => Triple.pure _ fun _ idle => idle
  refine Triple.action ?_ fun _ disk start => safe disk start.1.1
  rintro disk ⟨⟨-, switched⟩, -⟩
  have idle : Idle staged { disk with journal := none } := ⟨rfl, switched⟩
  exact ⟨idle, idle.protected arrives⟩

variable {faults : CallFaults}

theorem runMigration_triple (backs : .fail ∉ faults.backUp)
    (within : ∀ target, good target → new target) (arrives : new source) :
    Triple allowed (Protected new good) (Journalled good) (Rested good)
      (runMigration hash parses source faults) fun _ => Idle source := by
  have given : ∀ outcome ∈ faults.backUp, outcome ≠ .fail := by
    rintro outcome member rfl
    exact backs member
  have each : ∀ target, Triple allowed (Protected new good) (Journalled good)
      (fun disk => good target ∧ Idle target disk) (runMigration hash parses source faults)
      fun _ => Idle source := by
    intro target
    refine Triple.assume (fun _ => And.left) fun fine => Triple.weaken ?_ fun _ => And.right
    refine Triple.bind (Triple.supply given (backUp_triple fine (within target fine))) fun _ => ?_
    exact Triple.supply_any (moveIn_triple hash parses fine arrives fun _ backed =>
      ⟨target, fine, backed⟩)
  exact Triple.weaken (Triple.choose each) fun disk rested => ⟨_, rested.2, rested.1, rfl⟩

-- What a return promises of the state: where no rollback failed, the destination is good, or what
-- a completed migration brings.
def Migrated.Promises (good : Target → Prop) (source : Target) : Migrated → Disk → Prop
  | .completed _, disk =>
      if source = ⟨none, none⟩ then Rested good disk else Idle source disk
  | .recoveryFailed _, disk => Protected good good disk
  | .failed _ true, disk => Rested good disk
  | .failed _ false, disk => Protected good good disk

theorem migrate_triple (backs : .fail ∉ faults.backUp)
    (within : ∀ target, good target → new target) (arrives : new source) :
    Triple allowed (Protected new good) (fun _ => False) (Protected good good)
      (migrate hash parses source faults) (Migrated.Promises good source) := by
  refine Triple.bind (Triple.settle (Triple.supply_any (recoverOnStart_triple within)))
    fun recovered => ?_
  cases recovered with
  | error error => exact Triple.pure _ fun _ start => start
  | ok _ =>
    refine Triple.ite (fun missing => ?_) fun present => ?_
    · have none : source = ⟨none, none⟩ := by
        obtain ⟨identity, config⟩ := source
        simpa using missing
      refine Triple.pure _ fun disk rested => ?_
      rw [Migrated.Promises, if_pos none]
      exact rested
    · have some : source ≠ ⟨none, none⟩ := by
        rintro rfl
        exact present rfl
      refine Triple.bind (Triple.settle (runMigration_triple hash parses backs within arrives))
        fun result => ?_
      cases result with
      | ok report =>
        refine Triple.pure _ fun disk idle => ?_
        rw [Migrated.Promises, if_neg some]
        exact idle
      | error error =>
        refine Triple.bind (Triple.settle (Triple.supply_any (rollback_rests within)))
          fun rolledBack => ?_
        cases rolledBack with
        | ok _ => exact Triple.pure _ fun disk rested => rested
        | error _ => exact Triple.pure _ fun disk held => held

end MoveIn

end Calls

section Sequence

variable (hash : Bytes → UInt64) (parses : Bytes → Bool) (source prior : Target)

abbrev Log := List (Except (Stop MigrationError) Answer × List Disk)

-- No action fails before the journal of the backup is written.
def Call.BacksUp : Call → Prop
  | .migrate faults => .fail ∉ faults.backUp
  | .recoverOnStart _ => True

-- The sources have been the destination without a journal.
def Completed (history : Log) : Prop :=
  ∃ disk ∈ history.flatMap Prod.snd, disk.journal = none ∧ disk.target = source

-- The prior state of the destination, or the result of a completed migration.
def Good (history : Log) (target : Target) : Prop :=
  target = prior ∨ target = source ∧ Completed source history

-- A complete copy is at the destination or in the backup.
def Saved (history : Log) (disk : Disk) : Prop :=
  Good source prior history disk.target ∨ Good source prior history (targetOf disk.backup) ∨
    disk.target = source

-- What the destination is when a call returns and no rollback of it failed.
def Answered (history : Log) : Except (Stop MigrationError) Answer → Disk → Prop
  | .ok (.recovered (.ok _)), disk | .ok (.migrated (.failed _ true)), disk =>
      Good source prior history disk.target
  | .ok (.migrated (.completed _)), disk =>
      if source = ⟨none, none⟩ then Good source prior history disk.target
      else disk.target = source
  | _, _ => True

def Safe (history : Log) (disk : Disk) (call : Call) : Prop :=
  (∀ passed ∈ disk :: (execute (call.prog hash parses source) disk).2.passed,
      Saved source prior history passed) ∧
    Answered source prior history (execute (call.prog hash parses source) disk).1
      (execute (call.prog hash parses source) disk).2.state

variable {hash parses source prior} {history : Log} {call : Call}

theorem call_triple (backs : call.BacksUp) :
    Triple (fun _ => True)
      (Protected (fun target => Good source prior history target ∨ target = source)
        (Good source prior history))
      (fun _ => False) (Protected (Good source prior history) (Good source prior history))
      (call.prog hash parses source)
      fun answer => Answered source prior history (.ok answer) := by
  cases call with
  | migrate faults =>
    refine Triple.bind (migrate_triple hash parses backs (fun _ => Or.inl) (Or.inr rfl))
      fun migrated => Triple.pure _ fun disk promised => ?_
    cases migrated with
    | completed report =>
      simp only [Migrated.Promises, Answered] at promised ⊢
      split_ifs at promised ⊢
      · exact promised.2
      · exact promised.2
    | recoveryFailed error => trivial
    | failed error rolledBack =>
      cases rolledBack with
      | true => exact promised.2
      | false => trivial
  | recoverOnStart outcomes =>
    refine Triple.bind (Triple.settle (Triple.supply_any (recoverOnStart_triple fun _ => Or.inl)))
      fun recovered => Triple.pure _ fun disk promised => ?_
    cases recovered with
    | ok ran => exact promised.2
    | error error => trivial

theorem Protected.saved {disk : Disk}
    (held : Protected (fun target => Good source prior history target ∨ target = source)
      (Good source prior history) disk) : Saved source prior history disk := by
  cases journal : disk.journal with
  | none =>
    rcases held.1 journal with good | same
    · exact Or.inl good
    · exact Or.inr (Or.inr same)
  | some phase => exact Or.inr (Or.inl (held.2 (by rw [journal]; rfl)))

theorem Good.append {target : Target} (good : Good source prior history target) (more : Log) :
    Good source prior (history ++ more) target := by
  rcases good with same | ⟨same, disk, member, rest⟩
  · exact Or.inl same
  · refine Or.inr ⟨same, disk, ?_, rest⟩
    rw [List.flatMap_append]
    exact List.mem_append_left _ member

theorem call_safe {disk : Disk}
    (held : Protected (Good source prior history) (Good source prior history) disk)
    (backs : call.BacksUp) :
    Safe hash parses source prior history disk call ∧
      Protected (Good source prior (history ++ (step hash parses source disk call).2))
        (Good source prior (history ++ (step hash parses source disk call).2))
        (step hash parses source disk call).1 := by
  have weaker : Protected (fun target => Good source prior history target ∨ target = source)
      (Good source prior history) disk := ⟨fun none => Or.inl (held.1 none), held.2⟩
  obtain ⟨passed, last, ends⟩ := Triple.execute (call_triple backs) held
  refine ⟨⟨?_, ?_⟩, ?_⟩
  · intro state member
    rcases List.mem_cons.mp member with rfl | later
    · exact weaker.saved
    · exact (passed state later).saved
  · cases result : (execute (call.prog hash parses source) disk).1 with
    | ok answer =>
      rw [result] at ends
      exact ends
    | error stop =>
      cases stop <;> trivial
  · change Protected (Good source prior (history ++ [((execute (call.prog hash parses source) disk).1,
        (execute (call.prog hash parses source) disk).2.passed)])) _
      (execute (call.prog hash parses source) disk).2.state
    rw [last]
    cases final : (execute (call.prog hash parses source) disk).2.passed.getLast? with
    | none => exact ⟨fun none => (held.1 none).append _, fun some => (held.2 some).append _⟩
    | some state =>
      have member := List.mem_of_getLast? final
      obtain ⟨idle, backed⟩ := passed state member
      refine ⟨fun none => ?_, fun some => (backed some).append _⟩
      rcases idle none with good | same
      · exact good.append _
      · refine Or.inr ⟨same, state, ?_, none, same⟩
        rw [List.flatMap_append]
        exact List.mem_append_right _ (by simpa using member)

/-- Whatever fails or crashes from the journal of the backup on, and whatever crashes before it: a
complete copy of the prior destination or of a migration that was switched in is always there, and
whenever a call returns without a failed rollback, the destination is one of them. -/
theorem run_never_loses_install (hash : Bytes → UInt64) (parses : Bytes → Bool) (source : Target)
    (disk : Disk) (start : disk.journal = none) (calls : List Call)
    (backs : ∀ call ∈ calls, call.BacksUp) :
    Runs.Along (step hash parses source) (Safe hash parses source disk.target) [] disk calls := by
  have guarded : Runs.Along (step hash parses source) (fun _ _ call => call.BacksUp) [] disk
      calls := Runs.along_of_forall (fun call member _ _ => backs call member) _ _
  refine Runs.along_of_invariant (step hash parses source) _
    (fun history disk' => Protected (Good source disk.target history)
      (Good source disk.target history) disk')
    (fun _ _ _ held allowed => (call_safe held allowed).2)
    (fun _ _ _ held allowed => (call_safe held allowed).1) [] disk calls ?_ guarded
  exact ⟨fun _ => Or.inl rfl, fun present => by simp [start] at present⟩

instance decidableBacksUp (call : Call) : Decidable call.BacksUp :=
  match call with
  | .migrate _ => inferInstanceAs (Decidable (_ ∉ _))
  | .recoverOnStart _ => .isTrue trivial

-- An install with one paired client, and a source with another identity.
def pairedDisk : Disk := ⟨⟨some (.file "cert.pem" [1] .nil), none⟩, none, none, none⟩

def oldSource : Target := ⟨some (.dir "certs" (.file "key.pem" [2] .nil) .nil), some [123, 125]⟩

-- A crash while the backup is made, one within the switch, a recovery whose rollback fails, one that
-- succeeds, and a migration that is completed.
def interruptedCalls : List Call :=
  [.migrate ⟨[], [.done, .done, .crash], [], []⟩,
    .migrate ⟨[], [], List.replicate 11 Faults.Outcome.done ++ [Faults.Outcome.crash], []⟩,
    .recoverOnStart [.done, .done, .fail], .recoverOnStart [], .migrate ⟨[], [], [], []⟩]

theorem run_never_loses_install_interrupted :
    pairedDisk.journal = none ∧ (∀ call ∈ interruptedCalls, call.BacksUp) ∧
      Runs.Along (step (fun bytes => bytes.length.toUInt64) (fun _ => true) oldSource)
        (Safe (fun bytes => bytes.length.toUInt64) (fun _ => true) oldSource pairedDisk.target) []
        pairedDisk interruptedCalls := by
  have backs : ∀ call ∈ interruptedCalls, call.BacksUp := by decide
  exact ⟨rfl, backs, run_never_loses_install _ _ oldSource pairedDisk rfl interruptedCalls backs⟩

-- The managed root cannot be created.
def refusedCall : Call := .migrate ⟨[], [.fail], [], []⟩

-- The rollback takes the install away, and there is no backup of it.
theorem refused_call_loses_install :
    (execute (refusedCall.prog (fun bytes => bytes.length.toUInt64) (fun _ => true) oldSource)
        pairedDisk).2.state = ⟨⟨none, none⟩, none, none, none⟩ ∧
      ¬ Runs.Along (step (fun bytes => bytes.length.toUInt64) (fun _ => true) oldSource)
        (Safe (fun bytes => bytes.length.toUInt64) (fun _ => true) oldSource pairedDisk.target) []
        pairedDisk [refusedCall] := by
  have answer : (execute (refusedCall.prog (fun bytes => bytes.length.toUInt64) (fun _ => true)
      oldSource) pairedDisk).1 = .ok (.migrated (.failed (.mkdir "") true)) := rfl
  have lost : (execute (refusedCall.prog (fun bytes => bytes.length.toUInt64) (fun _ => true)
      oldSource) pairedDisk).2.state = ⟨⟨none, none⟩, none, none, none⟩ := rfl
  refine ⟨lost, ?_⟩
  rintro ⟨⟨-, answered⟩, -⟩
  rw [answer, lost] at answered
  rcases answered with same | ⟨same, -⟩
  · exact absurd same (by decide)
  · exact absurd same (by decide)

end Sequence

end Identity

end BetterParsec
