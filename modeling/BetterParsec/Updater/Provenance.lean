import BetterParsec.Updater.Installation

set_option autoImplicit false
set_option linter.all false

/-!
# Where an installed set comes from

Whatever is staged between the calls and wherever they are interrupted, a directory
at the install path or set aside from it was there from the start or was verified
before it was moved in, and has at most the manifest it was verified against copied
into it.
-/

namespace BetterParsec

open Interruption

theorem Disk.readJournal_ok {Item : Type} {disk : Disk Item} {path : Path} {journal : Journal}
    (read : disk.readJournal path = .ok journal) : disk path = some (.journal journal) := by
  unfold Disk.readJournal at read
  split at read
  all_goals simp_all

namespace Installer

section Provenance

variable {Key : Type} (verifier : Update.Verifier Key) (install : Path) (initial : Machine)

-- The install directory, and what is set aside from it.
def Tracked (path : Path) : Prop := path = install ∨ PrevOf install path

-- The entries are what the signed manifest lists, wherever they were staged.
def Verified (signed : SignedManifest) (entries : Entries) : Prop :=
  ∃ name, ExactSet ⟨verifier.os, .dir [(name, .dir entries)]⟩ verifier.crypto [name] entries signed
    verifier.trustRoot verifier.runningProtocolVersions

inductive Genuine : Entries → Prop where
  | initial {path : Path} {entries : Entries} (tracked : Tracked install path)
      (held : initial path = some (.dir entries)) : Genuine entries
  | verified {signed : SignedManifest} {entries : Entries}
      (exactly : Verified verifier signed entries) : Genuine entries
  | copied {manifest : Option (List UInt8)} {contents : List UInt8} {signed : SignedManifest}
      {entries written : Entries} (parsed : parseManifest verifier manifest = .ok signed)
      (exactly : Verified verifier signed entries) (begins : contents <+: manifest.getD [])
      (wrote : writeFile verifier.os entries manifestCopy contents = some written) :
      Genuine written

-- The journal names a path that was set aside.
def NamesPrev (disk : Machine) : Prop :=
  ∀ journal, disk (journalPath install) = some (.journal journal) → PrevOf install journal.prevPath

structure Sound (disk : Machine) : Prop where
  genuine : ∀ path entries, Tracked install path → disk path = some (.dir entries) →
    Genuine verifier install initial entries
  journal : NamesPrev install disk

-- The staged set has been moved in.
structure Arrived (place : Outside install) (found : Option (Node (String × FileTree)))
    (disk : Machine) : Prop where
  installed : disk install = found
  gone : disk place.path = none

-- What was staged is installed, with the manifest it was verified against copied into it.
def Installed (place : Outside install) (manifest : Option (List UInt8))
    (found : Option (Node (String × FileTree))) (disk : Machine) : Prop :=
  ∃ signed entries written, parseManifest verifier manifest = .ok signed ∧
    found = some (.dir entries) ∧ Verified verifier signed entries ∧
    writeFile verifier.os entries manifestCopy (manifest.getD []) = some written ∧
    disk install = some (.dir written) ∧ disk place.path = none

variable {verifier install initial}
variable {disk next : Machine} {step : String} {place : Outside install}

theorem Tracked.ne_journal {path : Path} (tracked : Tracked install path) :
    path ≠ journalPath install := by
  obtain rfl | known := tracked
  · exact (journalPath_ne path).symm
  · exact journalPath_ne_prev known

theorem Outside.ne_tracked (place : Outside install) {path : Path}
    (tracked : Tracked install path) : place.path ≠ path := by
  rintro rfl
  obtain same | known := tracked
  · exact place.notInstall same
  · exact place.notPrev known

/-- What is put at a tracked path has to be genuine, and a journal to name a path set aside. -/
theorem Sound.put (sound : Sound verifier install initial disk) {path : Path}
    {node : Option (Node (String × FileTree))}
    (genuine : ∀ entries, Tracked install path → node = some (.dir entries) →
      Genuine verifier install initial entries)
    (names : ∀ journal, path = journalPath install → node = some (.journal journal) →
      PrevOf install journal.prevPath) :
    Sound verifier install initial (disk.put path node) := by
  refine ⟨fun other entries tracked held => ?_, fun journal held => ?_⟩
  · by_cases same : other = path
    · rw [same, Disk.put_same] at held
      exact genuine entries (same ▸ tracked) held
    · rw [Disk.put_other _ same] at held
      exact sound.genuine other entries tracked held
  · by_cases same : journalPath install = path
    · rw [same, Disk.put_same] at held
      exact names journal same.symm held
    · rw [Disk.put_other _ same] at held
      exact sound.journal journal held

/-- A rename keeps the disk sound where what it moves is genuine. -/
theorem Sound.rename (sound : Sound verifier install initial disk) {source target : Path}
    (moves : ∀ entries, disk source = some (.dir entries) →
      Genuine verifier install initial entries)
    (apart : target ≠ journalPath install) (renamed : disk.rename step source target = .ok next) :
    Sound verifier install initial next := by
  obtain ⟨node, found, ⟨-, rfl⟩ | ⟨different, free, rfl⟩⟩ := Disk.rename_ok renamed
  · exact sound
  · have removed : Sound verifier install initial (disk.put source none) :=
      sound.put (by simp) (by simp)
    exact removed.put (fun entries _ same => moves entries (found.trans same))
      (fun _ same _ => absurd same apart)

theorem Sound.putJournal (sound : Sound verifier install initial disk)
    {node : Option (Node (String × FileTree))}
    (names : ∀ journal, node = some (.journal journal) → PrevOf install journal.prevPath) :
    Sound verifier install initial (disk.put (journalPath install) node) :=
  sound.put (fun _ tracked _ => absurd rfl tracked.ne_journal) (fun journal _ same =>
    names journal same)

theorem Sound.stage (sound : Sound verifier install initial disk) (place : Outside install)
    (node : Option (Node (String × FileTree))) :
    Sound verifier install initial (disk.put place.path node) :=
  sound.put (fun _ tracked _ => absurd rfl (place.ne_tracked tracked))
    (fun _ same _ => absurd same place.notJournal)

theorem Sound.putInstall (sound : Sound verifier install initial disk) {entries : Entries}
    (genuine : Genuine verifier install initial entries) :
    Sound verifier install initial (disk.put install (some (.dir entries))) := by
  refine sound.put (fun others _ same => ?_) (by simp)
  obtain rfl : entries = others := by simpa using same
  exact genuine

-- The actions on the journal, whatever else holds of the rest of the disk.
section Journal

variable {rest : Machine → Prop}
  (kept : ∀ disk node, rest disk → rest (disk.put (journalPath install) node))

include kept

theorem removeJournal_sound :
    Triple (fun disk => Sound verifier install initial disk ∧ rest disk)
      (removeJournalStep (journalPath install))
      (fun _ disk => Sound verifier install initial disk ∧ rest disk)
      (Sound verifier install initial) := by
  refine .atomic (fun disk next holds removed => ?_) (fun _ holds => holds.1)
    (fun _ holds => holds.1)
  obtain ⟨-, rfl⟩ := Disk.removeJournal_ok removed
  exact ⟨holds.1.putJournal (by simp), kept disk none holds.2⟩

theorem writeJournal_sound {journal : Journal} (known : PrevOf install journal.prevPath) :
    Triple (fun disk => Sound verifier install initial disk ∧ rest disk)
      (writeJournalStep (journalPath install) journal)
      (fun _ disk => Sound verifier install initial disk ∧ rest disk)
      (Sound verifier install initial) := by
  refine .atomic (fun disk next holds written => ?_) (fun _ holds => holds.1) (fun disk holds => ?_)
  · obtain ⟨-, rfl⟩ := Disk.writeJournal_ok written
    refine ⟨holds.1.putJournal fun other same => ?_, kept disk _ holds.2⟩
    obtain rfl : journal = other := by simpa using same
    exact known
  · obtain same | ⟨-, torn⟩ := disk.tearJournal_cases (journalPath install)
    · rw [same]
      exact holds.1
    · rw [torn]
      exact holds.1.putJournal (by simp)

end Journal

section Swapping

variable {found : Option (Node (String × FileTree))}

theorem staged_kept (disk : Machine) (node : Option (Node (String × FileTree)))
    (staged : disk place.path = found) :
    disk.put (journalPath install) node place.path = found := by
  rw [Disk.put_other _ place.notJournal, staged]

theorem Arrived.kept (disk : Machine) (node : Option (Node (String × FileTree)))
    (arrived : Arrived install place found disk) :
    Arrived install place found (disk.put (journalPath install) node) := by
  refine ⟨?_, staged_kept disk node arrived.gone⟩
  rw [Disk.put_other _ (journalPath_ne install).symm, arrived.installed]

theorem rename_sound {source target : Path} (fromTracked : Tracked install source)
    (toTracked : Tracked install target) :
    Triple (fun disk => Sound verifier install initial disk ∧ disk place.path = found)
      (renameStep step source target)
      (fun _ disk => Sound verifier install initial disk ∧ disk place.path = found)
      (Sound verifier install initial) := by
  refine .atomic (fun disk next holds renamed => ?_) (fun _ holds => holds.1)
    (fun _ holds => holds.1)
  obtain ⟨sound, staged⟩ := holds
  refine ⟨sound.rename (fun entries held => sound.genuine source entries fromTracked held)
    toTracked.ne_journal renamed, ?_⟩
  obtain ⟨node, -, ⟨-, rfl⟩ | ⟨-, -, rfl⟩⟩ := Disk.rename_ok renamed
  · exact staged
  · rw [Disk.put_other _ (place.ne_tracked toTracked),
      Disk.put_other _ (place.ne_tracked fromTracked), staged]

theorem recover_sound :
    Triple (fun disk => Sound verifier install initial disk ∧ disk place.path = found)
      (recoverIfInterrupted install)
      (fun _ disk => Sound verifier install initial disk ∧ disk place.path = found)
      (Sound verifier install initial) := by
  refine .bind (.observe _) fun interrupted => .ite (fun present => ?_) (fun absent => ?_)
  · refine .bind (.attempt _ (fun _ holds => holds.1.1)) fun journal => ?_
    refine .assume (fun disk holds => holds.1.1.1.journal journal (Disk.readJournal_ok holds.2))
      fun known => ?_
    refine .bind ?_ fun _ => removeJournal_sound staged_kept
    refine .bind (.observe _) fun installExists => .bind (.observe _) fun prevExists => ?_
    refine .ite (fun restores => ?_) (fun leaves => ?_)
    · exact (rename_sound (.inr known) (.inl rfl)).weaken fun _ holds => holds.1.1.1.1
    · exact .pure () fun _ holds => holds.1.1.1.1
  · exact .pure () fun _ holds => holds.1

theorem setAside_sound {prev : Path} (known : PrevOf install prev) :
    Triple (fun disk => Sound verifier install initial disk ∧ disk place.path = found)
      (setAside install prev)
      (fun _ disk => Sound verifier install initial disk ∧ disk place.path = found)
      (Sound verifier install initial) := by
  refine .bind (.observe _) fun installExists => .ite (fun present => ?_) (fun absent => ?_)
  · exact (rename_sound (.inl rfl) (.inr known)).weaken fun _ holds => holds.1
  · exact .pure () fun _ holds => holds.1

theorem moveIn_sound (verified : ∀ entries, found = some (.dir entries) →
    Genuine verifier install initial entries) :
    Triple (fun disk => Sound verifier install initial disk ∧ disk place.path = found)
      (renameStep step place.path install)
      (fun _ disk => Sound verifier install initial disk ∧ Arrived install place found disk)
      (Sound verifier install initial) := by
  refine .atomic (fun disk next holds renamed => ?_) (fun _ holds => holds.1)
    (fun _ holds => holds.1)
  obtain ⟨sound, staged⟩ := holds
  refine ⟨sound.rename (fun entries held => verified entries (staged.symm.trans held))
    (journalPath_ne install).symm renamed, ?_⟩
  obtain ⟨node, held, ⟨same, -⟩ | ⟨-, -, rfl⟩⟩ := Disk.rename_ok renamed
  · exact absurd same place.notInstall
  · refine ⟨?_, ?_⟩
    · rw [Disk.put_same, ← staged, held]
    · rw [Disk.put_other _ place.notInstall, Disk.put_same]

/-- A swap that returns has moved in what was staged. -/
theorem performSwap_sound (verified : ∀ entries, found = some (.dir entries) →
    Genuine verifier install initial entries) (version : String) (timestamp : Nat) :
    Triple (fun disk => Sound verifier install initial disk ∧ disk place.path = found)
      (performSwap place.path install version timestamp)
      (fun _ disk => Sound verifier install initial disk ∧ Arrived install place found disk)
      (Sound verifier install initial) := by
  refine .bind recover_sound fun _ => .bind (.observe _) fun prev => ?_
  refine .assume (fun disk holds => holds.2 ▸ disk.prevPath_prevOf install version timestamp)
    fun known => ?_
  refine .bind ((writeJournal_sound staged_kept known).weaken fun _ holds => holds.1) fun _ => ?_
  refine .bind (setAside_sound known) fun _ => .bind (moveIn_sound verified) fun _ => ?_
  exact .bind (writeJournal_sound Arrived.kept known) fun _ => removeJournal_sound Arrived.kept

end Swapping

theorem exactSet_of_verified {fs : FileSystem} {crypto : Crypto Key} {stagedDir : List String}
    {entries : Entries} {signed : SignedManifest} {trustRoot : Key} {running : ProtocolVersions}
    {token : VerifiedSet} (present : fs.root.get stagedDir = some (.dir entries))
    (accepted : verifyStagedSet fs crypto stagedDir signed trustRoot running = .ok token) :
    ExactSet fs crypto stagedDir entries signed trustRoot running := by
  simp only [verifyStagedSet, bind_ok_iff] at accepted
  obtain ⟨signature, consistent, protocol, components, listed, -⟩ := accepted
  exact {
    signature := verifySignature_ok_iff.mp signature
    protocol := Manifest.checkProtocolCompatible_ok_iff.mp protocol
    listed := (checkNoUnlistedFiles_ok_iff present).mp listed
    components := (verifyComponents_ok_iff present _).mp components
    agree := (Manifest.checkConsistent_ok_iff.mp consistent).2 }

theorem verifyStagedAt_ok {staged : Path} {signed : SignedManifest} {token : VerifiedSet}
    {entries : Entries} (accepted : verifyStagedAt verifier disk staged signed = .ok token)
    (held : disk staged = some (.dir entries)) : Verified verifier signed entries := by
  have view : stagedView verifier disk staged =
      ⟨verifier.os, .dir [(staged.fileName, .dir entries)]⟩ := by
    simp only [stagedView, held]
  rw [verifyStagedAt, view] at accepted
  have present : (FileTree.dir [(staged.fileName, .dir entries)]).get [staged.fileName] =
      some (.dir entries) := by
    simp [FileTree.get]
  exact ⟨staged.fileName, exactSet_of_verified present accepted⟩

theorem writeCopy_ok {contents : List UInt8}
    (wrote : writeCopy verifier install contents disk = .ok next) :
    ∃ entries written, disk install = some (.dir entries) ∧
      writeFile verifier.os entries manifestCopy contents = some written ∧
      next = disk.put install (some (.dir written)) := by
  unfold writeCopy at wrote
  split at wrote
  next entries held =>
    split at wrote
    next written done => exact ⟨entries, written, held, done, (Except.ok.inj wrote).symm⟩
    · simp at wrote
  all_goals simp at wrote

section Copying

variable {manifest : Option (List UInt8)} {signed : SignedManifest}
  {found : Option (Node (String × FileTree))}
  (parsed : parseManifest verifier manifest = .ok signed)
  (verified : ∀ entries, found = some (.dir entries) → Verified verifier signed entries)

include parsed verified

theorem Sound.copied (sound : Sound verifier install initial disk)
    (arrived : Arrived install place found disk) {contents : List UInt8}
    (begins : contents <+: manifest.getD [])
    (wrote : writeCopy verifier install contents disk = .ok next) :
    Sound verifier install initial next := by
  obtain ⟨entries, written, held, done, rfl⟩ := writeCopy_ok wrote
  have exactly := verified entries (arrived.installed.symm.trans held)
  exact sound.putInstall (.copied parsed exactly begins done)

theorem writeCopy_sound (kept : Nat) :
    Triple (fun disk => Sound verifier install initial disk ∧ Arrived install place found disk)
      (atomic (writeCopy verifier install (manifest.getD []))
        (tearCopy verifier install ((manifest.getD []).take kept)))
      (fun _ disk => Sound verifier install initial disk ∧
        Installed verifier install place manifest found disk)
      (Sound verifier install initial) := by
  refine .atomic (fun disk next holds wrote => ?_) (fun _ holds => holds.1) (fun disk holds => ?_)
  · obtain ⟨sound, arrived⟩ := holds
    refine ⟨sound.copied parsed verified arrived (List.prefix_refl _) wrote, ?_⟩
    obtain ⟨entries, written, held, done, rfl⟩ := writeCopy_ok wrote
    have same := arrived.installed.symm.trans held
    refine ⟨signed, entries, written, parsed, same, verified entries same, done, ?_, ?_⟩
    · exact Disk.put_same _ _ _
    · rw [Disk.put_other _ place.notInstall, arrived.gone]
  · unfold tearCopy
    split
    next torn wrote =>
      exact holds.1.copied parsed verified holds.2 (List.take_prefix _ _) wrote
    · exact holds.1

end Copying

theorem runSwap_sound (place : Outside install) (manifest : Option (List UInt8))
    (timestamp kept : Nat) (found : Option (Node (String × FileTree))) :
    Triple (fun disk => Sound verifier install initial disk ∧ disk place.path = found)
      (runSwap verifier place.path install manifest timestamp kept)
      (fun _ disk => Sound verifier install initial disk ∧
        Installed verifier install place manifest found disk)
      (Sound verifier install initial) := by
  refine .bind (.attempt _ (fun _ holds => holds.1)) fun signed => ?_
  refine .assume (fun _ holds => holds.2) fun parsed => ?_
  refine .bind (.attempt _ (fun _ holds => holds.1.1)) fun token => ?_
  have accepted (disk : Machine) (holds : ((Sound verifier install initial disk ∧
      disk place.path = found) ∧ parseManifest verifier manifest = .ok signed) ∧
      (verifyStagedAt verifier disk place.path signed).mapError RunSwapError.refused = .ok token)
      (entries : Entries) (same : found = some (.dir entries)) :
      Verified verifier signed entries := by
    obtain ⟨⟨⟨-, staged⟩, -⟩, passed⟩ := holds
    cases result : verifyStagedAt verifier disk place.path signed with
    | error reason => simp [result, Except.mapError] at passed
    | ok value => exact verifyStagedAt_ok result (staged.trans same)
  refine .assume accepted fun verified => .bind (.observe _) fun outgoingVersion => ?_
  refine .bind ((Triple.withContext _ (performSwap_sound
    (fun entries same => .verified (verified entries same)) _ timestamp)).weaken
    fun _ holds => holds.1.1.1) fun _ => ?_
  exact writeCopy_sound parsed verified kept

theorem Sound.event (sound : Sound verifier install initial disk) (event : Event install) :
    Sound verifier install initial (event.step verifier disk).1 := by
  cases event with
  | stage place node => exact sound.stage place node
  | swap place manifest timestamp kept cut =>
    exact ((runSwap_sound place manifest timestamp kept (disk place.path)).relax
      fun _ _ holds => holds.1).execute_keeps cut ⟨sound, rfl⟩

end Provenance

/-- Whatever is staged and wherever the calls are interrupted: a directory at the install path or
set aside from it was there from the start, or is a verified set with at most the beginning of its
manifest copied into it; and a swap that returns `Ok` has installed the verified staged set. -/
theorem run_installs_verified {Key : Type} (verifier : Update.Verifier Key) (install : Path)
    (disk : Machine) (names : NamesPrev install disk) (events : List (Event install)) :
    (∀ path entries, Tracked install path →
      (Runs.run (Event.step verifier) disk events).1 path = some (.dir entries) →
      Genuine verifier install disk entries) ∧
    ∀ place manifest timestamp kept cut final,
      execute (runSwap verifier place.path install manifest timestamp kept)
        (Runs.run (Event.step verifier) disk events).1 cut = (.ok (), final) →
      Installed verifier install place manifest
        ((Runs.run (Event.step verifier) disk events).1 place.path) final := by
  have start : Sound verifier install disk disk :=
    ⟨fun path entries tracked held => .initial tracked held, names⟩
  have sound := Runs.run_invariant_of_forall (Event.step verifier)
    (fun _ => Sound verifier install disk) (fun _ disk event held => held.event event) [] disk
    events start
  refine ⟨sound.genuine, fun place manifest timestamp kept cut final ran => ?_⟩
  exact ((runSwap_sound place manifest timestamp kept _).execute_ok ⟨sound, rfl⟩ ran).2

def shippedFiles : Entries := [("betterparsec.exe", .file [77, 90])]

def shipped : Machine := fun path => if path = installDir then some (.dir shippedFiles) else none

def stagedPlace : Outside installDir where
  path := stagedDir
  notInstall := by decide +kernel
  notJournal := by decide +kernel
  notPrev := by
    rintro ⟨version, same | ⟨timestamp, same⟩⟩
    · have names := congrArg (fun path => path.fileName.toList) same
      simp [prevCandidate, Path.withFileName, installDir, stagedDir] at names
    · have names := congrArg (fun path => path.fileName.toList) same
      simp [prevStamped, Path.withFileName, installDir, stagedDir] at names

def emptyLibraryText : String :=
  "\x7b\"manifest\":\x7b\"set_version\":\"1.0.0\",\"protocol\":\x7b\"fec\":2," ++
  "\"connection_terminated_codes\":1\x7d,\"components\":[\x7b\"name\":\"bin//empty.dll\"," ++
  "\"role\":\"host\",\"sha256\":" ++
  "\"E3B0C44298FC1C149AFBF4C8996FB92427AE41E4649B934CA495991B7852B855\",\"size\":0\x7d," ++
  "\x7b\"name\":\"bin/empty.dll\",\"role\":\"client\",\"sha256\":" ++
  "\"e3b0c44298fc1c149afbf4c8996fb92427ae41e4649b934ca495991b7852b855\",\"size\":0\x7d]," ++
  "\"signing_key_id\":\"dev-trust-root-v1\"\x7d,\"signature\":\"" ++ neutralText ++ "\"\x7d"

-- `text` is the one manifest this verifier is asked about.
def hostVerifier (text : String) : Update.Verifier Unit where
  os := .unix
  crypto := neutralCrypto
  trustRoot := ()
  runningProtocolVersions := ⟨2, 1⟩
  fromJson other :=
    if other = text then .ok emptyLibraryManifest
    else .error "expected value at line 1 column 1"
  explain _ := "signature does not match the trust root"

def staging : List (Event installDir) := [.stage stagedPlace (some (.dir emptyLibrary))]

def libraryStaged (text : String) : Machine :=
  (Runs.run (Event.step (hostVerifier text)) shipped staging).1

theorem libraryStaged_held (text : String) :
    libraryStaged text stagedPlace.path = some (.dir emptyLibrary) := by
  simp [libraryStaged, staging, Runs.run, Event.step, Disk.put_same]

theorem emptyLibrary_parsed (text : String) :
    parseManifest (hostVerifier text) (some (Utf8.encode text.toList)) =
      .ok emptyLibraryManifest := by
  simp [parseManifest, Utf8.decode_encode, hostVerifier]

theorem emptyLibrary_accepted (text : String) :
    verifyStagedAt (hostVerifier text) (libraryStaged text) stagedPlace.path emptyLibraryManifest =
      .ok ⟨⟩ := by
  have view : stagedView (hostVerifier text) (libraryStaged text) stagedPlace.path =
      emptyLibraryHost := by
    simp only [stagedView, libraryStaged_held]
    rfl
  have present : emptyLibraryHost.root.get ["staged"] = some (.dir emptyLibrary) := rfl
  have exactly := emptyLibrary_exact
  have consistent : emptyLibraryManifest.manifest.checkInternallyConsistent = .ok () :=
    Manifest.checkConsistent_ok_iff.mpr ⟨fun _ _ _ none => by simp at none, exactly.agree⟩
  have accepted : verifyStagedSet emptyLibraryHost neutralCrypto ["staged"] emptyLibraryManifest ()
      ⟨2, 1⟩ = .ok ⟨⟩ := by
    rw [verifyStagedSet, verifySignature_ok_iff.mpr exactly.signature, consistent,
      Manifest.checkProtocolCompatible_ok_iff.mpr exactly.protocol,
      (verifyComponents_ok_iff present _).mpr exactly.components,
      (checkNoUnlistedFiles_ok_iff present).mpr exactly.listed]
    rfl
  rw [verifyStagedAt, view]
  exact accepted

theorem libraryUpdate_accepted (text : String) (cut : Cut) :
    runSwap (hostVerifier text) stagedPlace.path installDir (some (Utf8.encode text.toList)) 7 0
        ⟨libraryStaged text, cut⟩ =
      installVerified (hostVerifier text) stagedPlace.path installDir (Utf8.encode text.toList) 7 0
        ⟨libraryStaged text, cut⟩ := by
  have parsed : (attempt fun _ =>
      parseManifest (hostVerifier text) (some (Utf8.encode text.toList)) :
      Prog Machine RunSwapError SignedManifest) ⟨libraryStaged text, cut⟩ =
      (.ok emptyLibraryManifest, ⟨libraryStaged text, cut⟩) :=
    attempt_of_ok (emptyLibrary_parsed text)
  have accepted : (attempt fun disk =>
      (verifyStagedAt (hostVerifier text) disk stagedPlace.path emptyLibraryManifest).mapError
        RunSwapError.refused : Prog Machine RunSwapError VerifiedSet) ⟨libraryStaged text, cut⟩ =
      (.ok ⟨⟩, ⟨libraryStaged text, cut⟩) := by
    apply attempt_of_ok
    rw [emptyLibrary_accepted]
    rfl
  rw [runSwap, bind_of_ok parsed, bind_of_ok accepted, Option.getD_some]

theorem shipped_names : NamesPrev installDir shipped := by
  intro journal held
  have absent : shipped (journalPath installDir) = none := by
    rw [shipped, if_neg (journalPath_ne installDir)]
  simp [absent] at held

theorem libraryUpdate_returns (text : String)
    (returned : (execute (installVerified (hostVerifier text) stagedPlace.path installDir
      (Utf8.encode text.toList) 7 0) (libraryStaged text) ⟨none, false⟩).1.isOk = true) :
    ∃ final, execute (runSwap (hostVerifier text) stagedPlace.path installDir
      (some (Utf8.encode text.toList)) 7 0) (libraryStaged text) ⟨none, false⟩ =
        (.ok (), final) := by
  have ran : execute (runSwap (hostVerifier text) stagedPlace.path installDir
      (some (Utf8.encode text.toList)) 7 0) (libraryStaged text) ⟨none, false⟩ =
      execute (installVerified (hostVerifier text) stagedPlace.path installDir
        (Utf8.encode text.toList) 7 0) (libraryStaged text) ⟨none, false⟩ := by
    simp only [execute, ExceptT.run, libraryUpdate_accepted]
  cases result : execute (installVerified (hostVerifier text) stagedPlace.path installDir
      (Utf8.encode text.toList) 7 0) (libraryStaged text) ⟨none, false⟩ with
  | mk value final =>
    rw [result] at ran returned
    cases value with
    | error stop => simp [Except.isOk, Except.toBool] at returned
    | ok _ => exact ⟨final, ran⟩

theorem run_installs_verified_empty_library :
    libraryStaged emptyLibraryText stagedPlace.path = some (.dir emptyLibrary) ∧ ∃ final,
      execute (runSwap (hostVerifier emptyLibraryText) stagedPlace.path installDir
        (some (Utf8.encode emptyLibraryText.toList)) 7 0) (libraryStaged emptyLibraryText)
        ⟨none, false⟩ = (.ok (), final) ∧
      Installed (hostVerifier emptyLibraryText) installDir stagedPlace
        (some (Utf8.encode emptyLibraryText.toList))
        (libraryStaged emptyLibraryText stagedPlace.path) final := by
  obtain ⟨final, ran⟩ := libraryUpdate_returns emptyLibraryText (by decide +kernel)
  exact ⟨libraryStaged_held _, final, ran,
    (run_installs_verified (hostVerifier emptyLibraryText) installDir shipped shipped_names
      staging).2 stagedPlace (some (Utf8.encode emptyLibraryText.toList)) 7 0 ⟨none, false⟩ final
      ran⟩
end Installer

end BetterParsec
