import BetterParsec.Library.Faults
import BetterParsec.Library.Runs

set_option autoImplicit false
set_option linter.all false

/-!
# Migration of the identity

`migrate`, `recover_on_start` and `rollback` of `app-native/src/identity.rs`. The
managed root holds the identity tree, `config.json`, the backup, the staging
area and the journal; a directory that is created, a file that is copied, an
entry that is removed and a rename are one action each.
-/

namespace BetterParsec

namespace Identity

open Faults

abbrev Bytes := List UInt8

-- The entries of a directory, in the order in which it is read.
inductive Tree where
  | nil
  | file (name : String) (bytes : Bytes) (rest : Tree)
  | dir (name : String) (entries : Tree) (rest : Tree)
  deriving DecidableEq

def Tree.file? (name : String) : Tree → Option Bytes
  | .nil => none
  | .file other bytes rest => if other = name then some bytes else rest.file? name
  | .dir other _ rest => if other = name then none else rest.file? name

def Tree.dir? (name : String) : Tree → Option Tree
  | .nil => none
  | .file other _ rest => if other = name then none else rest.dir? name
  | .dir other entries rest => if other = name then some entries else rest.dir? name

-- The identity tree and `config.json`, at the destination or in another place.
structure Target where
  identity : Option Tree
  config : Option Bytes
  deriving DecidableEq

-- The backup or the staging area: what is restored or switched in, and anything else.
structure Area where
  target : Target
  other : Tree
  deriving DecidableEq

inductive Phase where
  | backedUp
  | staged
  | verified
  deriving DecidableEq

structure Disk where
  target : Target
  backup : Option Area
  staging : Option Area
  journal : Option Phase
  deriving DecidableEq

inductive MigrationError where
  | mkdir (path : String)
  | remove (path : String)
  | copy (path : String)
  | journal
  | switch (what : String)
  | stagedMissing (path : String)
  | hashMismatch (path : String)
  | parseValidation (path : String)
  deriving DecidableEq

structure MigrationReport where
  filesMigrated : Nat
  deriving DecidableEq

abbrev Migrating (A : Type) := Prog Disk MigrationError A

section Verify

-- `DefaultHasher` and `serde_json`.
variable (hash : Bytes → UInt64) (parses : Bytes → Bool)

-- `Path::extension`: what follows the last dot, if something stands before it.
def isJson (name : String) : Bool := name.endsWith ".json" && name.length > 5

def verifyFileMatches (name : String) (source staged : Bytes) : Except MigrationError Unit :=
  if hash source ≠ hash staged then .error (.hashMismatch name)
  else if isJson name && !parses staged then .error (.parseValidation name)
  else .ok ()

def verifyFiles (staged : Option Tree) : Tree → Except MigrationError Nat
  | .nil => .ok 0
  | .dir _ _ rest => verifyFiles staged rest
  | .file name bytes rest =>
      match staged.bind (·.file? name) with
      | none => .error (.stagedMissing name)
      | some copied => do
          verifyFileMatches hash parses name bytes copied
          return (← verifyFiles staged rest) + 1

-- The directories below, the last one first: they wait on a stack.
def verifyDirs (staged : Option Tree) : Tree → Except MigrationError Nat
  | .nil => .ok 0
  | .file _ _ rest => verifyDirs staged rest
  | .dir name entries rest => do
      let later ← verifyDirs staged rest
      let files ← verifyFiles hash parses (staged.bind (·.dir? name)) entries
      let below ← verifyDirs (staged.bind (·.dir? name)) entries
      return later + files + below

def verifyDirMatches (source : Tree) (staged : Option Tree) : Except MigrationError Nat := do
  let files ← verifyFiles hash parses staged source
  let below ← verifyDirs hash parses staged source
  return files + below

-- (c) of `run_migration`.
def verify (source staged : Target) : Except MigrationError Nat := do
  let files ← match source.identity with
    | some tree => verifyDirMatches hash parses tree staged.identity
    | none => .ok 0
  match source.config with
  | some bytes =>
      match staged.config with
      | none => .error (.stagedMissing "config.json")
      | some copied => do
          verifyFileMatches hash parses "config.json" bytes copied
          return files + 1
  | none => .ok files

end Verify

-- `write` puts what is left of the entries back to their place.
def removeEntries (path : String) (write : Tree → Disk → Disk) : Tree → Migrating Unit
  | .nil => pure ()
  | .file _ _ rest => do
      action (.remove path) (write rest)
      removeEntries path write rest
  | .dir name entries rest => do
      removeEntries path (fun left => write (.dir name left rest)) entries
      action (.remove path) (write rest)
      removeEntries path write rest

-- `write` puts what is copied so far to its place; the target does not exist before.
def copyEntries (path : String) (write : Tree → Disk → Disk) : Tree → Migrating Unit
  | .nil => pure ()
  | .file name bytes rest => do
      action (.copy path) (write (.file name bytes .nil))
      copyEntries path (fun copied => write (.file name bytes copied)) rest
  | .dir name entries rest => do
      action (.mkdir path) (write (.dir name .nil .nil))
      copyEntries path (fun copied => write (.dir name copied .nil)) entries
      copyEntries path (fun copied => write (.dir name entries copied)) rest

def copyDirRecursive (path : String) (write : Tree → Disk → Disk) (source : Tree) :
    Migrating Unit := do
  action (.mkdir path) (write .nil)
  copyEntries path write source

-- Where an area stands on the disk.
structure Slot where
  path : String
  get : Disk → Option Area
  set : Option Area → Disk → Disk

def backupDir : Slot :=
  ⟨".backup-lkg", Disk.backup, fun area disk => { disk with backup := area }⟩

def stagingDir : Slot :=
  ⟨".staging", Disk.staging, fun area disk => { disk with staging := area }⟩

def removeIdentity (path : String) (write : Option Tree → Disk → Disk) :
    Option Tree → Migrating Unit
  | none => pure ()
  | some tree => do
      removeEntries path (fun left => write (some left)) tree
      action (.remove path) (write none)

def removeConfig (path : String) (gone : Disk → Disk) : Option Bytes → Migrating Unit
  | none => pure ()
  | some _ => action (.remove path) gone

-- `remove_path_any` of a directory.
def removeArea (slot : Slot) : Option Area → Migrating Unit
  | none => pure ()
  | some ⟨target, other⟩ => do
      removeIdentity slot.path
        (fun left => slot.set (some ⟨{ target with identity := left }, other⟩)) target.identity
      removeConfig slot.path (slot.set (some ⟨⟨none, none⟩, other⟩)) target.config
      removeEntries slot.path (fun left => slot.set (some ⟨⟨none, none⟩, left⟩)) other
      action (.remove slot.path) (slot.set none)

-- `create_dir_all` of the area, which keeps one that is there.
def createArea (slot : Slot) : Migrating Unit :=
  action (.mkdir slot.path) fun disk =>
    slot.set (some ((slot.get disk).getD ⟨⟨none, none⟩, .nil⟩)) disk

-- The area with another identity tree.
def Slot.writeIdentity (slot : Slot) (tree : Tree) (disk : Disk) : Disk :=
  let area := (slot.get disk).getD ⟨⟨none, none⟩, .nil⟩
  slot.set (some { area with target := { area.target with identity := some tree } }) disk

def Slot.writeConfig (slot : Slot) (bytes : Bytes) (disk : Disk) : Disk :=
  let area := (slot.get disk).getD ⟨⟨none, none⟩, .nil⟩
  slot.set (some { area with target := { area.target with config := some bytes } }) disk

def copyIdentityInto (slot : Slot) : Option Tree → Migrating Unit
  | some tree => do
      createArea slot
      copyDirRecursive slot.path slot.writeIdentity tree
  | none => pure ()

def copyConfigInto (slot : Slot) : Option Bytes → Migrating Unit
  | some bytes => do
      createArea slot
      action (.copy slot.path) (slot.writeConfig bytes)
  | none => pure ()

-- The destination into the backup, or the sources into the staging area.
def copyInto (slot : Slot) (target : Target) : Migrating Unit := do
  copyIdentityInto slot target.identity
  copyConfigInto slot target.config

def createRoot : Migrating Unit := action (.mkdir "") id

def writeJournal (phase : Phase) : Migrating Unit := do
  createRoot
  action .journal fun disk => { disk with journal := some phase }

def removeJournal : Migrating Unit :=
  action .journal fun disk => { disk with journal := none }

def writeIdentity (tree : Option Tree) (disk : Disk) : Disk :=
  { disk with target := { disk.target with identity := tree } }

def writeConfig (bytes : Option Bytes) (disk : Disk) : Disk :=
  { disk with target := { disk.target with config := bytes } }

-- `remove_path_any` of the identity tree and of the configuration at the destination.
def removeTarget : Migrating Unit := do
  let target ← observe Disk.target
  removeIdentity "identity" writeIdentity target.identity
  removeConfig "config.json" (writeConfig none) target.config

def targetOf (area : Option Area) : Target := (area.map Area.target).getD ⟨none, none⟩

def restoreIdentity : Option Tree → Migrating Unit
  | some tree => copyDirRecursive "identity" (fun copied => writeIdentity (some copied)) tree
  | none => pure ()

def restoreConfig : Option Bytes → Migrating Unit
  | some bytes => do
      createRoot
      action (.copy "config.json") (writeConfig (some bytes))
  | none => pure ()

def rollback : Migrating Unit := do
  removeArea stagingDir (← observe Disk.staging)
  removeTarget
  let backup ← observe fun disk => targetOf disk.backup
  restoreIdentity backup.identity
  restoreConfig backup.config
  removeJournal

def recoverOnStart : Migrating Bool := do
  let journal ← observe Disk.journal
  if journal.isSome then do
    rollback
    return true
  else return false

-- (a) of `run_migration`.
def backUp : Migrating Unit := do
  createRoot
  removeArea backupDir (← observe Disk.backup)
  copyInto backupDir (← observe Disk.target)
  writeJournal .backedUp

def switchIdentity (disk : Disk) : Disk :=
  match disk.staging with
  | some ⟨⟨some tree, config⟩, other⟩ =>
      { writeIdentity (some tree) disk with staging := some ⟨⟨none, config⟩, other⟩ }
  | _ => disk

def switchConfig (disk : Disk) : Disk :=
  match disk.staging with
  | some ⟨⟨identity, some bytes⟩, other⟩ =>
      { writeConfig (some bytes) disk with staging := some ⟨⟨identity, none⟩, other⟩ }
  | _ => disk

-- A rename of what was staged.
def switch (staged : Bool) (what : String) (act : Disk → Disk) : Migrating Unit :=
  if staged then action (.switch what) act else pure ()

section Migrate

variable (hash : Bytes → UInt64) (parses : Bytes → Bool) (source : Target)

-- (b), (c) and (d) of `run_migration`.
def moveIn : Migrating MigrationReport := do
  removeArea stagingDir (← observe Disk.staging)
  copyInto stagingDir source
  writeJournal .staged
  let staged ← observe fun disk => targetOf disk.staging
  let filesMigrated ← check (verify hash parses source staged)
  writeJournal .verified
  removeTarget
  switch staged.identity.isSome "identity dir" switchIdentity
  switch staged.config.isSome "server config" switchConfig
  removeArea stagingDir (← observe Disk.staging)
  removeJournal
  return ⟨filesMigrated⟩

-- The outcomes of the actions of a call, part by part.
structure CallFaults where
  recovery : List Outcome
  backUp : List Outcome
  moveIn : List Outcome
  rollback : List Outcome

def runMigration (faults : CallFaults) : Migrating MigrationReport := do
  supply faults.backUp backUp
  supply faults.moveIn (moveIn hash parses source)

-- What `migrate` returns, and for an error whether its rollback was logged to have failed.
inductive Migrated where
  | completed (report : MigrationReport)
  | recoveryFailed (error : MigrationError)
  | failed (error : MigrationError) (rolledBack : Bool)
  deriving DecidableEq

def migrate (faults : CallFaults) : Migrating Migrated := do
  match ← settle (supply faults.recovery recoverOnStart) with
  | .error error => return .recoveryFailed error
  | .ok _ =>
    if source.identity.isNone && source.config.isNone then return .completed ⟨0⟩
    else
      match ← settle (runMigration hash parses source faults) with
      | .ok report => return .completed report
      | .error error =>
        let rolledBack ← settle (supply faults.rollback rollback)
        return .failed error rolledBack.isOk

inductive Call where
  | migrate (faults : CallFaults)
  | recoverOnStart (outcomes : List Outcome)

inductive Answer where
  | migrated (migrated : Migrated)
  | recovered (recovered : Except MigrationError Bool)

def Call.prog : Call → Migrating Answer
  | .migrate faults => do return .migrated (← Identity.migrate hash parses source faults)
  | .recoverOnStart outcomes => do
      return .recovered (← settle (supply outcomes Identity.recoverOnStart))

-- A call from the state that the one before it left, also by crashing.
def step (disk : Disk) (call : Call) :
    Disk × List (Except (Stop MigrationError) Answer × List Disk) :=
  let (answer, world) := execute (call.prog hash parses source) disk
  (world.state, [(answer, world.passed)])

end Migrate

end Identity

end BetterParsec
