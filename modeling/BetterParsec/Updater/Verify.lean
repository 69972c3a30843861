import BetterParsec.Updater.Manifest

set_option autoImplicit false
set_option linter.all false

/-!
# Verification of a staged set

`verify_staged_set` of `tools/updater/src/verify.rs` over a file system that is a finite
tree of regular files and directories, with the staged directory at some place in
it. How the platform splits a path and finds an entry by name is a parameter.
-/

namespace BetterParsec

inductive FileTree where
  | file (contents : List UInt8)
  | dir (entries : List (String × FileTree))

-- What is particular to a platform: its separators, how an entry is found, what the length of a
-- directory is, and the texts of its errors.
structure Os where
  isSeparator : Char → Bool
  mainSeparator : Char
  find : List (String × FileTree) → String → Option (String × FileTree)
  dirLength : Nat
  notFound : String
  isDirectory : String
  notDirectory : String
  separators : ∀ c, isSeparator c = true → c = '/' ∨ c = '\\'
  main : mainSeparator = '/' ∨ mainSeparator = '\\'

-- Drive prefixes are left out: no name that has one is ever joined.
def Os.unix : Os where
  isSeparator c := c = '/'
  mainSeparator := '/'
  find entries name := entries.find? (fun entry => entry.1 = name)
  dirLength := 4096
  notFound := "No such file or directory (os error 2)"
  isDirectory := "Is a directory (os error 21)"
  notDirectory := "Not a directory (os error 20)"
  separators c found := .inl (by simpa using found)
  main := .inl rfl

def FileTree.get : FileTree → List String → Option FileTree
  | tree, [] => some tree
  | .dir entries, name :: rest =>
      match entries.find? (fun entry => entry.1 = name) with
      | some (_, below) => below.get rest
      | none => none
  | .file _, _ :: _ => none

structure FileSystem where
  os : Os
  root : FileTree

namespace FileSystem

variable (fs : FileSystem)

-- Where the platform gets to from a directory; a file has nothing below it, not even `.`.
def resolve (place : List String) : List (List Char) → Option (List String × FileTree)
  | [] => (fs.root.get place).map fun node => (place, node)
  | segment :: rest =>
      match fs.root.get place with
      | some (.dir entries) =>
          if segment = [] ∨ segment = ['.'] then resolve place rest
          else if segment = ['.', '.'] then resolve place.dropLast rest
          else
            match fs.os.find entries (String.ofList segment) with
            | some (name, _) => resolve (place ++ [name]) rest
            | none => none
      | some (.file _) | none => none

-- `staged_dir.join(name)` starts at the root if the name does.
def resolveJoined (stagedDir : List String) (name : String) :
    Option (List String × FileTree) :=
  if name.toList.head?.any fs.os.isSeparator then
    fs.resolve [] (segments fs.os.isSeparator name.toList)
  else fs.resolve stagedDir (segments fs.os.isSeparator name.toList)

end FileSystem

def eqIgnoreAsciiCase (left right : String) : Bool :=
  left.toList.map Char.toLower = right.toList.map Char.toLower

def toSlash (c : Char) : Char := if c = '\\' then '/' else c

def slashNormalised (name : String) : String := String.ofList (name.toList.map toSlash)

-- `VerifiedSet` has one value, which only `verify_staged_set` hands out.
structure VerifiedSet where

section Verification

variable {Key : Type} (fs : FileSystem) (crypto : Crypto Key) (stagedDir : List String)

def verifyComponentFile (name expectedSha256 : String) (expectedSize : UInt64) :
    Except VerifyError Unit :=
  match fs.resolveJoined stagedDir name with
  | none => .error (.missingComponent name fs.os.notFound)
  | some (_, .dir _) =>
      if fs.os.dirLength ≠ expectedSize.toNat then
        .error (.sizeMismatch name expectedSize.toNat fs.os.dirLength)
      else .error (.missingComponent name fs.os.isDirectory)
  | some (_, .file contents) =>
      if contents.length ≠ expectedSize.toNat then
        .error (.sizeMismatch name expectedSize.toNat contents.length)
      else if !eqIgnoreAsciiCase (crypto.sha256 contents) expectedSha256 then
        .error (.hashMismatch name)
      else .ok ()

def verifyComponents : List ComponentEntry → Except VerifyError Unit
  | [] => .ok ()
  | component :: rest => do
      validateComponentName component.name
      verifyComponentFile fs crypto stagedDir component.name component.sha256 component.size
      verifyComponents rest

-- The path of an entry below the staged directory, as text with slashes.
def relativeName (path : List String) : String :=
  slashNormalised (String.ofList ([fs.os.mainSeparator].intercalate (path.map String.toList)))

-- The entries of one directory: its directories go on the stack, its files are looked up.
def walkEntries (listed : List String) (path : List String) :
    List (String × FileTree) → List (List String × List (String × FileTree)) →
      Except VerifyError (List (List String × List (String × FileTree)))
  | [], stack => .ok stack
  | (name, .dir entries) :: rest, stack =>
      walkEntries listed path rest ((path ++ [name], entries) :: stack)
  | (name, .file _) :: rest, stack =>
      if relativeName fs (path ++ [name]) = manifestFileName then
        walkEntries listed path rest stack
      else if relativeName fs (path ++ [name]) ∈ listed then walkEntries listed path rest stack
      else .error (.unlistedFile (relativeName fs (path ++ [name])))

mutual

def FileTree.weight : FileTree → Nat
  | .file _ => 1
  | .dir entries => 1 + entriesWeight entries

def entriesWeight : List (String × FileTree) → Nat
  | [] => 0
  | (_, below) :: rest => below.weight + entriesWeight rest

end

def stackWeight (stack : List (List String × List (String × FileTree))) : Nat :=
  (stack.map fun top => 1 + entriesWeight top.2).sum

theorem walkEntries_weight {listed path : List String} {entries : List (String × FileTree)}
    {stack next : List (List String × List (String × FileTree))}
    (walked : walkEntries fs listed path entries stack = .ok next) :
    stackWeight next ≤ stackWeight stack + entriesWeight entries := by
  induction entries generalizing stack with
  | nil =>
    rw [walkEntries] at walked
    rw [Except.ok.inj walked]
    omega
  | cons entry rest ih =>
    obtain ⟨name, below⟩ := entry
    cases below with
    | file contents =>
      rw [walkEntries] at walked
      split_ifs at walked
      all_goals
        have smaller := ih walked
        rw [entriesWeight]
        omega
    | dir entries =>
      rw [walkEntries] at walked
      have smaller := ih walked
      simp only [stackWeight, List.map_cons, List.sum_cons] at smaller ⊢
      rw [entriesWeight, FileTree.weight]
      omega

def walk (listed : List String) (stack : List (List String × List (String × FileTree))) :
    Except VerifyError Unit :=
  match stack with
  | [] => .ok ()
  | (path, entries) :: rest =>
      match _walked : walkEntries fs listed path entries rest with
      | .error error => .error error
      | .ok next => walk listed next
termination_by stackWeight stack
decreasing_by
  have smaller := walkEntries_weight fs _walked
  simp only [stackWeight, List.map_cons, List.sum_cons] at smaller ⊢
  omega

-- A missing directory has no files; anything else that is no directory cannot be read as one.
def checkNoUnlistedFiles (signed : SignedManifest) : Except VerifyError Unit :=
  match fs.root.get stagedDir with
  | none => .ok ()
  | some (.file _) =>
      .error (.enumerationFailed ("reading directory " ++
        String.ofList ([fs.os.mainSeparator].intercalate (stagedDir.map String.toList)) ++ ": " ++
        fs.os.notDirectory))
  | some (.dir entries) =>
      walk fs (signed.manifest.components.map fun component => slashNormalised component.name)
        [([], entries)]

def verifyStagedSet (signed : SignedManifest) (trustRoot : Key)
    (runningProtocol : ProtocolVersions) : Except VerifyError VerifiedSet := do
  verifySignature crypto signed trustRoot
  signed.manifest.checkInternallyConsistent
  signed.manifest.checkProtocolCompatible runningProtocol
  verifyComponents fs crypto stagedDir signed.manifest.components
  checkNoUnlistedFiles fs stagedDir signed
  return ⟨⟩

end Verification

end BetterParsec
