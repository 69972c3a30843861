import BetterParsec.Updater.CrashSafety

set_option autoImplicit false
set_option linter.all false

/-!
# Recovery after a crash

The journal is rewritten in place, so a crash between the truncation and the writing
leaves a file that does not parse, and `recover_if_interrupted` returns an error as
long as it is there.  Every other crash leaves a journal that recovery takes away.
-/

namespace BetterParsec

open Interruption

section Positions

variable {Item : Type}

-- The next recovery, not interrupted itself, returns `Ok` and leaves no journal.
def Recovers (install : Path) (disk : Disk Item) : Prop :=
  ∃ after, execute (recoverIfInterrupted install) disk ⟨none, false⟩ = (.ok (), after) ∧
    after (journalPath install) = none

-- What a whole recovery leaves, and how many file operations it takes.
def recovered (install : Path) (disk : Disk Item) : Disk Item × Nat :=
  match disk (journalPath install) with
  | some (.journal journal) =>
    let restored : Disk Item × Nat :=
      if decideRecovery journal.phase (disk.pathExists install)
          (disk.pathExists journal.prevPath) = .restorePrev then
        ((disk.put journal.prevPath none).put install (disk journal.prevPath), 1)
      else (disk, 0)
    (restored.1.put (journalPath install) none, restored.2 + 1)
  | _ => (disk, 0)

def movedAside (install prev : Path) (disk : Disk Item) : Except SwapError (Disk Item × Nat) :=
  if disk.pathExists install then
    (disk.rename "rename install to prev" install prev).map (·, 1)
  else .ok (disk, 0)

-- The places of the journal writes among the file operations of a call: the second one is
-- reached where both renames succeed.
def journalWrites (staged install : Path) (disk : Disk Item) : UpdaterCall → List Nat
  | .recover => []
  | .swap outgoingVersion timestamp =>
    let (disk, first) := recovered install disk
    let prev := disk.prevPath install outgoingVersion timestamp
    let marked := disk.put (journalPath install) (some (.journal ⟨.prevRenamed, prev⟩))
    match movedAside install prev marked with
    | .error _ => [first]
    | .ok (cleared, moved) =>
      match cleared.rename "rename staged into install" staged install with
      | .error _ => [first]
      | .ok _ => [first, first + moved + 2]

-- The crash falls between the truncation and the writing of a journal.
def TearsJournal (staged install : Path) (disk : Disk Item) (input : UpdaterCall × Cut) : Prop :=
  input.2.torn = true ∧ ∃ left ∈ input.2.left, left ∈ journalWrites staged install disk input.1

end Positions

section Recovery

variable {Item : Type} (install : Path)

-- No directory stands where the journal belongs.
def FileThere (disk : Disk Item) : Prop :=
  ∀ items, disk (journalPath install) ≠ some (.dir items)

-- Nothing or a whole journal stands there.
def Whole (disk : Disk Item) : Prop :=
  ∀ node ∈ disk (journalPath install), ∃ journal, node = .journal journal

variable {install} {staged : Path} {disk next : Disk Item} {step : String}

theorem Whole.fileThere (whole : Whole install disk) : FileThere install disk := by
  intro items found
  obtain ⟨journal, same⟩ := whole _ found
  cases same

theorem whole_of_none (absent : disk (journalPath install) = none) : Whole install disk := by
  intro node found
  simp [absent] at found

theorem journalPath_ne_prev {prev : Path} (known : PrevOf install prev) :
    prev ≠ journalPath install := by
  obtain ⟨version, rfl | ⟨timestamp, rfl⟩⟩ := known
  · intro same
    have names := congrArg (fun path => path.fileName.toList) same
    simp [prevCandidate, journalPath, Path.withFileName] at names
  · intro same
    have names := congrArg (fun path => path.fileName.toList) same
    simp [prevStamped, journalPath, Path.withFileName] at names

namespace Disk

-- A rename to another path leaves what stands at the journal's, or takes it away.
theorem rename_elsewhere {source target path : Path} (apart : path ≠ target)
    (renamed : disk.rename step source target = .ok next) :
    next path = disk path ∨ next path = none := by
  obtain ⟨node, found, ⟨-, rfl⟩ | ⟨different, free, rfl⟩⟩ := rename_ok renamed
  · exact .inl rfl
  · rw [put_other _ apart]
    by_cases atSource : path = source
    · exact .inr (by rw [atSource, put_same])
    · exact .inl (put_other _ atSource)

theorem removeJournal_file {path : Path} (file : ∀ items, disk path ≠ some (.dir items)) :
    disk.removeJournal path = .ok (disk.put path none) := by
  unfold removeJournal
  split
  next absent =>
    congr 1
    funext other
    by_cases same : other = path
    · rw [same, put_same, absent]
    · rw [put_other _ same]
  next items found => exact absurd found (file items)
  next => rfl

theorem writeJournal_file {path : Path} (journal : Journal)
    (file : ∀ items, disk path ≠ some (.dir items)) :
    disk.writeJournal path journal = .ok (disk.put path (some (.journal journal))) := by
  unfold writeJournal
  split
  next items found => exact absurd found (file items)
  next => rfl

theorem tearJournal_file {path : Path} (file : ∀ items, disk path ≠ some (.dir items)) :
    disk.tearJournal path = disk.put path (some .torn) := by
  unfold tearJournal
  split
  next items found => exact absurd found (file items)
  next => rfl

end Disk

theorem Whole.rename {source target : Path} (whole : Whole install disk)
    (apart : journalPath install ≠ target) (renamed : disk.rename step source target = .ok next) :
    Whole install next := by
  intro node found
  obtain same | gone := Disk.rename_elsewhere apart renamed
  · exact whole node (same ▸ found)
  · simp [gone] at found

theorem FileThere.rename {source target : Path} (file : FileThere install disk)
    (apart : journalPath install ≠ target) (renamed : disk.rename step source target = .ok next) :
    FileThere install next := by
  intro items found
  obtain same | gone := Disk.rename_elsewhere apart renamed
  · exact file items (same ▸ found)
  · simp [gone] at found

-- The parts of the calls that write no journal, for whatever is kept by renames and removals.
section Quiet

variable {good : Disk Item → Prop}
  (renames : ∀ disk next step source target, good disk → journalPath install ≠ target →
    disk.rename step source target = .ok next → good next)
  (removes : ∀ disk, good disk → good (disk.put (journalPath install) none))

include removes in
theorem removeJournal_quiet :
    Triple good (removeJournalStep (journalPath install)) (fun _ => good) good := by
  refine .atomic (fun disk next holds removed => ?_) (fun _ holds => holds) (fun _ holds => holds)
  obtain ⟨-, rfl⟩ := Disk.removeJournal_ok removed
  exact removes disk holds

include renames in
theorem rename_quiet (source : Path) {target : Path} (apart : journalPath install ≠ target) :
    Triple good (renameStep step source target) (fun _ => good) good :=
  .atomic (fun disk next holds renamed => renames disk next _ _ _ holds apart renamed)
    (fun _ holds => holds) (fun _ holds => holds)

include renames in
theorem setAside_quiet {prev : Path} (known : PrevOf install prev) :
    Triple good (setAside install prev) (fun _ => good) good := by
  refine .bind (.observe _) fun installExists => .ite (fun present => ?_) (fun absent => ?_)
  · exact (rename_quiet renames install (journalPath_ne_prev known).symm).weaken
      fun _ holds => holds.1
  · exact .pure () fun _ holds => holds.1

include renames removes in
theorem recover_quiet :
    Triple good (recoverIfInterrupted install) (fun _ => good) good := by
  refine .bind (.observe _) fun interrupted => .ite (fun present => ?_) (fun absent => ?_)
  · refine .bind (.attempt _ (fun _ holds => holds.1)) fun journal => ?_
    refine .bind ?_ fun _ => removeJournal_quiet removes
    refine .bind (.observe _) fun installExists => .bind (.observe _) fun prevExists => ?_
    refine .ite (fun restores => ?_) (fun leaves => ?_)
    · exact (rename_quiet renames _ (journalPath_ne install)).weaken fun _ holds => holds.1.1.1.1
    · exact .pure () fun _ holds => holds.1.1.1.1
  · exact .pure () fun _ holds => holds.1

end Quiet

theorem whole_renames (disk next : Disk Item) (step : String) (source target : Path)
    (whole : Whole install disk) (apart : journalPath install ≠ target)
    (renamed : disk.rename step source target = .ok next) : Whole install next :=
  whole.rename apart renamed

theorem whole_removes (disk : Disk Item) (_ : Whole install disk) :
    Whole install (disk.put (journalPath install) none) :=
  whole_of_none (Disk.put_same _ _ _)

theorem fileThere_renames (disk next : Disk Item) (step : String) (source target : Path)
    (file : FileThere install disk) (apart : journalPath install ≠ target)
    (renamed : disk.rename step source target = .ok next) : FileThere install next :=
  file.rename apart renamed

theorem fileThere_removes (disk : Disk Item) (_ : FileThere install disk) :
    FileThere install (disk.put (journalPath install) none) := by
  intro items found
  simp [Disk.put_same] at found

theorem writeJournal_fileThere (journal : Journal) :
    Triple (FileThere install : Disk Item → Prop) (writeJournalStep (journalPath install) journal)
      (fun _ => FileThere install) (FileThere install) := by
  refine .atomic (fun disk next holds written => ?_) (fun _ holds => holds) (fun disk holds => ?_)
  · obtain ⟨-, rfl⟩ := Disk.writeJournal_ok written
    intro items found
    simp [Disk.put_same] at found
  · rw [Disk.tearJournal_file holds]
    intro items found
    simp [Disk.put_same] at found

theorem performSwap_fileThere (version : String) (timestamp : Nat) :
    Triple (FileThere install : Disk Item → Prop) (performSwap staged install version timestamp)
      (fun _ => FileThere install) (FileThere install) := by
  refine .bind (recover_quiet fileThere_renames fileThere_removes) fun _ => ?_
  refine .bind (.observe _) fun prev => ?_
  refine .assume (fun disk holds => holds.2 ▸ disk.prevPath_prevOf install version timestamp)
    fun known => ?_
  refine .bind ((writeJournal_fileThere _).weaken fun _ holds => holds.1) fun _ => ?_
  refine .bind (setAside_quiet fileThere_renames known) fun _ => ?_
  refine .bind (rename_quiet fileThere_renames staged (journalPath_ne install)) fun _ => ?_
  exact .bind (writeJournal_fileThere _) fun _ => removeJournal_quiet fileThere_removes

theorem FileThere.call (file : FileThere install disk) (input : UpdaterCall × Cut) :
    FileThere install (updaterStep staged install disk input).1 := by
  obtain ⟨call, cut⟩ := input
  cases call with
  | recover => exact (recover_quiet fileThere_renames fileThere_removes).execute_keeps cut file
  | swap version timestamp => exact (performSwap_fileThere version timestamp).execute_keeps cut file

theorem removeJournal_completes (file : FileThere install disk) :
    Completes (removeJournalStep (journalPath install)) disk ()
      (disk.put (journalPath install) none) 1 :=
  .atomic (Disk.removeJournal_file file)

-- Recovery renames only onto a free place.
theorem restore_completes (journal : Journal) (apart : journalPath install ≠ install)
    (file : FileThere install disk) :
    ∃ restored : Disk Item × Nat,
      (if decideRecovery journal.phase (disk.pathExists install)
          (disk.pathExists journal.prevPath) = .restorePrev then
        ((disk.put journal.prevPath none).put install (disk journal.prevPath), 1)
      else (disk, 0)) = restored ∧
        Completes (restore journal install) disk () restored.1 restored.2 ∧
        FileThere install restored.1 := by
  refine ⟨_, rfl, ?_⟩
  split_ifs with restores
  · obtain ⟨absent, present⟩ :
        disk install = none ∧ disk journal.prevPath ≠ none := by
      obtain ⟨phase, prev⟩ := journal
      cases phase with
      | prevRenamed => simpa [decideRecovery, Disk.pathExists] using restores
      | stagedMoved => simp [decideRecovery] at restores
    obtain ⟨node, found⟩ := Option.ne_none_iff_exists'.mp present
    have different : journal.prevPath ≠ install := by
      rintro same
      simp [same, absent] at found
    have renamed : disk.rename "restore previous set" journal.prevPath install =
        .ok ((disk.put journal.prevPath none).put install (disk journal.prevPath)) := by
      simp [Disk.rename, found, different, absent, Disk.replaces]
    refine ⟨.observe_bind (.observe_bind ?_), file.rename apart renamed⟩
    rw [if_pos restores]
    exact .atomic renamed
  · refine ⟨.observe_bind (.observe_bind ?_), file⟩
    rw [if_neg restores]
    exact .pure () disk

-- A whole journal is read, followed and removed.
theorem recover_completes (whole : Whole install disk) :
    Completes (recoverIfInterrupted install) disk () (recovered install disk).1
      (recovered install disk).2 := by
  rw [recovered]
  cases found : disk (journalPath install) with
  | none =>
    refine .observe_bind ?_
    rw [if_neg (by simp [Disk.pathExists, found])]
    exact .pure () disk
  | some node =>
    obtain ⟨journal, rfl⟩ := whole node found
    obtain ⟨restored, same, completes, file⟩ :=
      restore_completes journal (journalPath_ne install) whole.fileThere
    refine .observe_bind ?_
    rw [if_pos (by simp [Disk.pathExists, found])]
    have reads : disk.readJournal (journalPath install) = .ok journal := by
      simp [Disk.readJournal, found]
    refine .attempt_bind reads ?_
    simp only [same]
    exact completes.bind (removeJournal_completes file)

theorem recovered_absent (whole : Whole install disk) :
    (recovered install disk).1 (journalPath install) = none := by
  rw [recovered]
  cases found : disk (journalPath install) with
  | none => exact found
  | some node =>
    obtain ⟨journal, rfl⟩ := whole node found
    exact Disk.put_same _ _ _

theorem torn_fails (torn : disk (journalPath install) = some .torn) (cut : Cut) :
    execute (recoverIfInterrupted install) disk cut = (.error (.failed .corruptJournal), disk) := by
  have present : disk.pathExists (journalPath install) = true := by simp [Disk.pathExists, torn]
  have reads : (attempt (fun disk : Disk Item => disk.readJournal (journalPath install)) :
      Updating Item Journal) ⟨disk, cut⟩ = (.error (.failed .corruptJournal), ⟨disk, cut⟩) := by
    simp only [attempt, Disk.readJournal, torn]
  have ran : (recoverIfInterrupted install : Updating Item Unit) ⟨disk, cut⟩ =
      (.error (.failed .corruptJournal), ⟨disk, cut⟩) := by
    refine (@bind_of_ok _ _ _ _ _ _ _ ⟨disk, cut⟩ true ?_).trans ?_
    · simp only [observe, present]
    · rw [if_pos rfl]
      exact bind_of_error reads
  simp only [execute, ExceptT.run, ran]

-- A torn journal is an error of every recovery.
theorem recovers_iff_whole (file : FileThere install disk) :
    Recovers install disk ↔ Whole install disk := by
  constructor
  · rintro ⟨after, ran, -⟩ node found
    cases node with
    | dir items => exact absurd found (file items)
    | journal journal => exact ⟨journal, rfl⟩
    | torn =>
      have fails := torn_fails found ⟨none, false⟩
      rw [ran] at fails
      cases congrArg Prod.fst fails
  · intro whole
    exact ⟨_, (recover_completes whole).execute false, recovered_absent whole⟩

theorem setAside_completes {prev : Path} {aside : Disk Item × Nat}
    (moves : movedAside install prev disk = .ok aside) :
    Completes (setAside install prev) disk () aside.1 aside.2 := by
  refine .observe_bind ?_
  unfold movedAside at moves
  split_ifs at moves ⊢ with present
  · cases renamed : disk.rename "rename install to prev" install prev with
    | error error => simp [renamed, Except.map] at moves
    | ok next =>
      simp only [renamed, Except.map, Except.ok.injEq] at moves
      subst moves
      exact .atomic renamed
  · cases moves
    exact .pure () disk

theorem setAside_fails {prev : Path} {error : SwapError}
    (stays : movedAside install prev disk = .error error) :
    Fails (setAside install prev : Updating Item Unit) disk := by
  unfold movedAside at stays
  split_ifs at stays with present
  cases renamed : disk.rename "rename install to prev" install prev with
  | ok next => simp [renamed, Except.map] at stays
  | error error =>
    intro cut
    have fails : Fails (renameStep "rename install to prev" install prev : Updating Item Unit)
        disk := .atomic renamed
    obtain ⟨stop, after, ran⟩ := fails cut
    refine ⟨stop, after, (@bind_of_ok _ _ _ _ _ _ _ ⟨disk, cut⟩ true ?_).trans ?_⟩
    · simp only [observe, present]
    · rw [if_pos rfl]
      exact ran

-- A journal write spoils the journal exactly if the crash falls into it.
theorem writeJournal_leaves {rest : Unit → Updating Item Unit} (journal : Journal)
    (whole : Whole install disk) (cut : Cut) :
    Whole install ((writeJournalStep (journalPath install) journal >>= rest) ⟨disk, cut⟩).2.state ↔
      ¬(cut.torn = true ∧ cut.left = some 0) ∧
        (cut.Reaches 1 → Whole install
          (rest () ⟨disk.put (journalPath install) (some (.journal journal)), cut.past 1⟩).2.state) :=
  by
  refine Completes.atomic_leaves (Disk.writeJournal_file journal whole.fileThere) whole ?_ cut
  intro still
  rw [Disk.tearJournal_file whole.fileThere] at still
  obtain ⟨journal, same⟩ := still .torn (Disk.put_same _ _ _)
  cases same

theorem whole_marked (disk : Disk Item) (journal : Journal) :
    Whole install (disk.put (journalPath install) (some (.journal journal))) := by
  intro node found
  rw [Disk.put_same] at found
  exact ⟨journal, (Option.some.inj found).symm⟩

-- After both renames there is one more journal write.
theorem settle_leaves (journal : Journal) (whole : Whole install disk) (cut : Cut) :
    Whole install ((writeJournalStep (journalPath install) journal >>= fun _ =>
        removeJournalStep (journalPath install)) ⟨disk, cut⟩).2.state ↔
      ¬(cut.torn = true ∧ cut.left = some 0) := by
  rw [writeJournal_leaves journal whole]
  refine and_iff_left fun _ => ?_
  exact (removeJournal_quiet whole_removes).execute_keeps _ (whole_marked disk journal)

section Moves

variable (journal : Journal) {cut : Cut}

theorem moveIn_leaves (whole : Whole install disk) :
    Whole install ((do
        renameStep "rename staged into install" staged install
        writeJournalStep (journalPath install) journal
        removeJournalStep (journalPath install) : Updating Item Unit) ⟨disk, cut⟩).2.state ↔
      ∀ next, disk.rename "rename staged into install" staged install = .ok next →
        cut.Misses 1 := by
  have quiet : Triple (Whole install) (renameStep "rename staged into install" staged install :
      Updating Item Unit) (fun _ => Whole install) (Whole install) :=
    rename_quiet whole_renames staged (journalPath_ne install)
  cases renamed : disk.rename "rename staged into install" staged install with
  | error error =>
    have fails : Fails (renameStep "rename staged into install" staged install :
        Updating Item Unit) disk := .atomic renamed
    exact iff_of_true (fails.bind_leaves quiet whole cut) fun _ same => nomatch same
  | ok next =>
    have moves : Completes (renameStep "rename staged into install" staged install :
        Updating Item Unit) disk () next 1 := .atomic renamed
    rw [moves.bind_leaves quiet whole cut,
      settle_leaves journal (whole.rename (journalPath_ne install) renamed)]
    exact ⟨fun misses _ _ => misses, fun misses => misses next rfl⟩

theorem setAside_leaves {prev : Path} (known : PrevOf install prev) (whole : Whole install disk) :
    Whole install ((do
        setAside install prev
        renameStep "rename staged into install" staged install
        writeJournalStep (journalPath install) journal
        removeJournalStep (journalPath install) : Updating Item Unit) ⟨disk, cut⟩).2.state ↔
      ∀ aside, movedAside install prev disk = .ok aside →
        ∀ next, aside.1.rename "rename staged into install" staged install = .ok next →
          cut.Misses (aside.2 + 1) := by
  have quiet : Triple (Whole install) (setAside install prev : Updating Item Unit)
      (fun _ => Whole install) (Whole install) := setAside_quiet whole_renames known
  cases moves : movedAside install prev disk with
  | error error =>
    exact iff_of_true ((setAside_fails moves).bind_leaves quiet whole cut) fun _ same => nomatch same
  | ok aside =>
    have completes := setAside_completes moves
    have cleared : Whole install aside.1 := by
      have ends := (quiet ⟨disk, ⟨none, false⟩⟩ whole).1 _ _ (completes.ends _ fun _ given => nomatch given)
      exact ends
    rw [completes.bind_leaves quiet whole cut]
    simp only [moveIn_leaves journal cleared, Except.ok.injEq, forall_eq', ← Cut.misses_past]
    exact ⟨fun misses next renamed reaches => misses reaches next renamed,
      fun misses reaches next renamed => misses next renamed reaches⟩

end Moves

theorem performSwap_leaves (version : String) (timestamp : Nat) (whole : Whole install disk)
    (cut : Cut) :
    Whole install (performSwap staged install version timestamp ⟨disk, cut⟩).2.state ↔
      ¬TearsJournal staged install disk (.swap version timestamp, cut) := by
  have still := whole_of_none (recovered_absent whole)
  rw [performSwap,
    (recover_completes whole).bind_leaves (recover_quiet whole_renames whole_removes) whole]
  simp only [TearsJournal, journalWrites]
  generalize recovered install disk = found at still ⊢
  obtain ⟨disk, first⟩ := found
  have known := disk.prevPath_prevOf install version timestamp
  simp only [@bind_of_ok _ _ _ _ (observe fun disk : Disk Item =>
    disk.prevPath install version timestamp) _ _ _ _ rfl, writeJournal_leaves _ still,
    setAside_leaves _ known (whole_marked disk _)]
  generalize disk.prevPath install version timestamp = prev
  have later (count : Nat) :
      (cut.Reaches first → (cut.past first).Reaches 1 →
        ((cut.past first).past 1).Misses (count + 1)) ↔ cut.Misses (first + count + 2) := by
    rw [Cut.misses_past, Cut.misses_past]
    congr! 1
    omega
  rw [imp_and]
  change cut.Misses first ∧ _ ↔ _
  cases movedAside install prev
      (disk.put (journalPath install) (some (.journal ⟨.prevRenamed, prev⟩))) with
  | error error => simp [Cut.misses_iff]
  | ok aside =>
    cases moves : aside.1.rename "rename staged into install" staged install with
    | error error => simp [Cut.misses_iff, moves]
    | ok next =>
      simp only [Except.ok.injEq, forall_eq', moves, later]
      rw [Cut.misses_iff, Cut.misses_iff]
      cases cut.left with
      | none => simp
      | some left =>
        simp
        grind

theorem recovers_step (file : FileThere install disk) (recovers : Recovers install disk)
    (input : UpdaterCall × Cut) :
    Recovers install (updaterStep staged install disk input).1 ↔
      ¬TearsJournal staged install disk input := by
  have whole := (recovers_iff_whole file).mp recovers
  rw [recovers_iff_whole (file.call input)]
  obtain ⟨call, cut⟩ := input
  cases call with
  | recover =>
    refine iff_of_true ((recover_quiet whole_renames whole_removes).execute_keeps cut whole) ?_
    simp [TearsJournal, journalWrites]
  | swap version timestamp => exact performSwap_leaves version timestamp whole cut

/-- Wherever the calls of a run are interrupted, the next recovery returns `Ok` and leaves no
journal, exactly if no crash falls between the truncation and the writing of a journal. -/
theorem run_recovers_iff (staged install : Path) (disk : Disk Item)
    (whole : Whole install disk) (calls : List (UpdaterCall × Cut)) :
    (∀ taken, taken <+: calls →
        Recovers install (Runs.run (updaterStep staged install) disk taken).1) ↔
      Runs.Along (updaterStep staged install)
        (fun _ disk input => ¬TearsJournal staged install disk input) [] disk calls := by
  apply Runs.along_iff_states (updaterStep staged install) (Recovers install) (FileThere install)
  · exact fun disk input file => file.call input
  · exact fun _ disk input file recovers => recovers_step file recovers input
  · exact whole.fileThere
  · exact (recovers_iff_whole whole.fileThere).mpr whole

end Recovery

-- The first journal write of a swap is cut between the truncation and the writing.
def tornWrite : List (UpdaterCall × Cut) := [(.swap "1.0.0" 7, ⟨some 0, true⟩)]

theorem torn_write_blocks :
    Whole installDir upgrade ∧
      ¬Recovers installDir (Runs.run (updaterStep stagedDir installDir) upgrade tornWrite).1 := by
  have torn : (Runs.run (updaterStep stagedDir installDir) upgrade tornWrite).1
      (journalPath installDir) = some .torn := by decide +kernel
  refine ⟨whole_of_none (by decide +kernel), ?_⟩
  rintro ⟨after, ran, -⟩
  have fails := torn_fails torn ⟨none, false⟩
  rw [ran] at fails
  cases congrArg Prod.fst fails

-- It is cut before its second rename instead.
theorem run_recovers_iff_between :
    Recovers installDir (Runs.run (updaterStep stagedDir installDir) upgrade betweenRenames).1 := by
  refine (run_recovers_iff stagedDir installDir upgrade (whole_of_none (by decide +kernel))
    betweenRenames).mpr ⟨?_, trivial⟩ betweenRenames (List.prefix_refl _)
  rintro ⟨torn, -⟩
  cases torn

end BetterParsec
