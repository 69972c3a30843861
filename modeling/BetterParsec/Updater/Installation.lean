import BetterParsec.App.UpdateStatus
import BetterParsec.Updater.CrashRecovery
import BetterParsec.Updater.Exactness

set_option autoImplicit false
set_option linter.all false

/-!
# Installing a staged set

`run_swap` of `tools/updater/src/main.rs`: the manifest is read, the staged set is
verified against it, swapped in, and the manifest is copied into the install
directory. Between the calls anything may be staged.
-/

namespace BetterParsec

open Interruption

namespace Installer

abbrev Entries := List (String × FileTree)

def manifestCopy : String := "update-manifest.json"

inductive RunSwapError where
  | readingManifest
  | parsingManifest (message : String)
  | refused (reason : VerifyError)
  | swapFailed (error : SwapError)
  | writingCopy

-- `fs::read_to_string` of a file in a directory.
def readToString (os : Os) (entries : Entries) (name : String) : Option String :=
  match os.find entries name with
  | some (_, .file contents) => (Utf8.decode contents).map String.ofList
  | some (_, .dir _) | none => none

-- `fs::write` to a file in a directory: the file keeps the name it is found under.
def writeFile (os : Os) (entries : Entries) (name : String) (contents : List UInt8) :
    Option Entries :=
  match os.find entries name with
  | none => some (entries ++ [(name, .file contents)])
  | some (_, .dir _) => none
  | some (found, .file _) =>
      some (entries.map fun entry => if entry.1 = found then (found, .file contents) else entry)

section Swap

variable {Key : Type} (verifier : Update.Verifier Key)

abbrev Machine := Disk (String × FileTree)

-- The file system as far as the verification of the staged set gets to see it.
def stagedView (disk : Machine) (staged : Path) : FileSystem where
  os := verifier.os
  root :=
    match disk staged with
    | some (.dir entries) => .dir [(staged.fileName, .dir entries)]
    | some (.journal _) | some .torn => .dir [(staged.fileName, .file [])]
    | none => .dir []

def verifyStagedAt (disk : Machine) (staged : Path) (signed : SignedManifest) :
    Except VerifyError VerifiedSet :=
  verifyStagedSet (stagedView verifier disk staged) verifier.crypto [staged.fileName] signed
    verifier.trustRoot verifier.runningProtocolVersions

def readInstalledVersion (disk : Machine) (install : Path) : Option String :=
  match disk install with
  | some (.dir entries) => do
      let text ← readToString verifier.os entries manifestCopy
      let signed ← (verifier.fromJson text).toOption
      return signed.manifest.setVersion
  | some (.journal _) | some .torn | none => none

def parseManifest (manifest : Option (List UInt8)) : Except RunSwapError SignedManifest :=
  match manifest.bind Utf8.decode with
  | none => .error .readingManifest
  | some text =>
      match verifier.fromJson (String.ofList text) with
      | .error message => .error (.parsingManifest message)
      | .ok signed => .ok signed

def writeCopy (install : Path) (contents : List UInt8) (disk : Machine) :
    Except RunSwapError Machine :=
  match disk install with
  | some (.dir entries) =>
      match writeFile verifier.os entries manifestCopy contents with
      | some written => .ok (disk.put install (some (.dir written)))
      | none => .error .writingCopy
  | some (.journal _) | some .torn | none => .error .writingCopy

-- What an interrupted write leaves of the copy.
def tearCopy (install : Path) (contents : List UInt8) (disk : Machine) : Machine :=
  match writeCopy verifier install contents disk with
  | .ok torn => torn
  | .error _ => disk

-- What follows the verification; an interrupted copy has its first `kept` bytes.
def installVerified (staged install : Path) (contents : List UInt8) (timestamp kept : Nat) :
    Prog Machine RunSwapError Unit := do
  let outgoingVersion ← observe fun disk => readInstalledVersion verifier disk install
  withContext .swapFailed (performSwap staged install (outgoingVersion.getD "unknown") timestamp)
  atomic (writeCopy verifier install contents) (tearCopy verifier install (contents.take kept))

-- `manifest` is what is read at `--manifest`.
def runSwap (staged install : Path) (manifest : Option (List UInt8)) (timestamp kept : Nat) :
    Prog Machine RunSwapError Unit := do
  let signed ← attempt fun _ => parseManifest verifier manifest
  let _verified ← attempt fun disk =>
    (verifyStagedAt verifier disk staged signed).mapError RunSwapError.refused
  installVerified verifier staged install (manifest.getD []) timestamp kept

-- A path the updater moves nothing to.
structure Outside (install : Path) where
  path : Path
  notInstall : path ≠ install
  notJournal : path ≠ journalPath install
  notPrev : ¬PrevOf install path

-- Somebody puts something outside, or the updater is called.
inductive Event (install : Path) where
  | stage (place : Outside install) (node : Option (Node (String × FileTree)))
  | swap (staged : Outside install) (manifest : Option (List UInt8)) (timestamp kept : Nat)
      (cut : Cut)

def Event.step {install : Path} (disk : Machine) :
    Event install → Machine × List (Except (Stop RunSwapError) Unit)
  | .stage place node => (disk.put place.path node, [])
  | .swap staged manifest timestamp kept cut =>
      let (result, after) :=
        execute (runSwap verifier staged.path install manifest timestamp kept) disk cut
      (after, [result])

end Swap

end Installer

end BetterParsec
