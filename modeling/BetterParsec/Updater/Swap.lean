import BetterParsec.Library.Interruption
import BetterParsec.Library.Runs

set_option autoImplicit false
set_option linter.all false

/-!
# The swap of an update

`perform_swap` and `recover_if_interrupted` of `tools/updater/src/swap.rs` over a disk
that maps paths to what stands there. Each rename, journal write and journal removal
is one atomic action; an interrupted journal write may leave a file that does not
parse.
-/

namespace BetterParsec

open Interruption

structure Path where
  parent : String
  fileName : String
  deriving DecidableEq

def Path.withFileName (path : Path) (fileName : String) : Path := { path with fileName := fileName }

inductive Phase where
  | prevRenamed
  | stagedMoved
  deriving DecidableEq

structure Journal where
  phase : Phase
  prevPath : Path
  deriving DecidableEq

inductive RecoveryAction where
  | restorePrev
  | noOp
  deriving DecidableEq

inductive SwapError where
  | io (step : String)
  | corruptJournal
  deriving DecidableEq

-- A directory is the list of what it contains, at any depth; `torn` is an empty or truncated file.
inductive Node (Item : Type) where
  | dir (items : List Item)
  | journal (journal : Journal)
  | torn
  deriving DecidableEq

def Disk (Item : Type) : Type := Path → Option (Node Item)

def decideRecovery (phase : Phase) (installExists prevExists : Bool) : RecoveryAction :=
  match phase with
  | .prevRenamed => if !installExists && prevExists then .restorePrev else .noOp
  | .stagedMoved => .noOp

def journalPath (install : Path) : Path :=
  install.withFileName (install.fileName ++ ".update-journal.json")

-- `trim_matches('_')` leaves nothing exactly if every character is an underscore.
def sanitizeVersionForFilename (version : String) : String :=
  let sanitized := version.toList.map fun c =>
    if c.isAlphanum || c = '.' || c = '-' || c = '_' then c else '_'
  if sanitized.all (· = '_') then "unknown" else String.ofList sanitized

def prevCandidate (install : Path) (outgoingVersion : String) : Path :=
  install.withFileName
    (install.fileName ++ ".prev-" ++ sanitizeVersionForFilename outgoingVersion)

def prevStamped (install : Path) (outgoingVersion : String) (timestamp : Nat) : Path :=
  install.withFileName
    (install.fileName ++ ".prev-" ++ sanitizeVersionForFilename outgoingVersion ++ "-" ++
      toString timestamp)

namespace Disk

variable {Item : Type}

def put (disk : Disk Item) (path : Path) (node : Option (Node Item)) : Disk Item :=
  fun other => if other = path then node else disk other

def pathExists (disk : Disk Item) (path : Path) : Bool := (disk path).isSome

def prevPath (disk : Disk Item) (install : Path) (outgoingVersion : String) (timestamp : Nat) :
    Path :=
  if !disk.pathExists (prevCandidate install outgoingVersion) then
    prevCandidate install outgoingVersion
  else prevStamped install outgoingVersion timestamp

-- A directory may replace an empty directory, a file may replace a file.
def replaces : Node Item → Option (Node Item) → Bool
  | _, none => true
  | .dir _, some (.dir []) => true
  | .journal _, some (.journal _) | .journal _, some .torn => true
  | .torn, some (.journal _) | .torn, some .torn => true
  | _, some _ => false

def rename (disk : Disk Item) (step : String) (source target : Path) :
    Except SwapError (Disk Item) :=
  match disk source with
  | none => .error (.io step)
  | some node =>
      if source = target then .ok disk
      else if replaces node (disk target) then .ok ((disk.put source none).put target (some node))
      else .error (.io step)

def writeJournal (disk : Disk Item) (path : Path) (journal : Journal) :
    Except SwapError (Disk Item) :=
  match disk path with
  | some (.dir _) => .error (.io "write journal")
  | _ => .ok (disk.put path (some (.journal journal)))

def tearJournal (disk : Disk Item) (path : Path) : Disk Item :=
  match disk path with
  | some (.dir _) => disk
  | _ => disk.put path (some .torn)

def readJournal (disk : Disk Item) (path : Path) : Except SwapError Journal :=
  match disk path with
  | none | some (.dir _) => .error (.io "read journal")
  | some .torn => .error .corruptJournal
  | some (.journal journal) => .ok journal

def removeJournal (disk : Disk Item) (path : Path) : Except SwapError (Disk Item) :=
  match disk path with
  | none => .ok disk
  | some (.dir _) => .error (.io "remove journal")
  | some _ => .ok (disk.put path none)

end Disk

section Calls

variable {Item : Type}

abbrev Updating (Item A : Type) := Prog (Disk Item) SwapError A

def renameStep (step : String) (source target : Path) : Updating Item Unit :=
  atomic (fun disk => disk.rename step source target) id

def writeJournalStep (path : Path) (journal : Journal) : Updating Item Unit :=
  atomic (fun disk => disk.writeJournal path journal) (fun disk => disk.tearJournal path)

def removeJournalStep (path : Path) : Updating Item Unit :=
  atomic (fun disk => disk.removeJournal path) id

def restore (journal : Journal) (install : Path) : Updating Item Unit := do
  let installExists ← observe (fun disk => disk.pathExists install)
  let prevExists ← observe (fun disk => disk.pathExists journal.prevPath)
  if decideRecovery journal.phase installExists prevExists = .restorePrev then
    renameStep "restore previous set" journal.prevPath install
  else pure ()

def recoverIfInterrupted (install : Path) : Updating Item Unit := do
  let interrupted ← observe (fun disk => disk.pathExists (journalPath install))
  if interrupted then do
    let journal ← attempt (fun disk => disk.readJournal (journalPath install))
    restore journal install
    removeJournalStep (journalPath install)
  else pure ()

def setAside (install prev : Path) : Updating Item Unit := do
  let installExists ← observe (fun disk => disk.pathExists install)
  if installExists then renameStep "rename install to prev" install prev else pure ()

def performSwap (staged install : Path) (outgoingVersion : String) (timestamp : Nat) :
    Updating Item Unit := do
  recoverIfInterrupted install
  let prev ← observe (fun disk => disk.prevPath install outgoingVersion timestamp)
  writeJournalStep (journalPath install) ⟨.prevRenamed, prev⟩
  setAside install prev
  renameStep "rename staged into install" staged install
  writeJournalStep (journalPath install) ⟨.stagedMoved, prev⟩
  removeJournalStep (journalPath install)

inductive UpdaterCall where
  | recover
  | swap (outgoingVersion : String) (timestamp : Nat)

def UpdaterCall.prog (staged install : Path) : UpdaterCall → Updating Item Unit
  | recover => recoverIfInterrupted install
  | swap outgoingVersion timestamp => performSwap staged install outgoingVersion timestamp

-- One call, interrupted where its cut says, and what it returned.
def updaterStep (staged install : Path) (disk : Disk Item) (input : UpdaterCall × Cut) :
    Disk Item × List (Except (Stop SwapError) Unit) :=
  let (result, after) := execute (input.1.prog staged install) disk input.2
  (after, [result])

end Calls

end BetterParsec
