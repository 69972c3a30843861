import BetterParsec.Updater.Coverage
import BetterParsec.Updater.Verify

set_option autoImplicit false
set_option linter.all false

/-!
# What a verified set contains

Verification accepts a staged directory exactly if the manifest is signed and of
this build's protocol, its files are the listed components and nothing else, and
every component is a file inside the directory with the listed size and hash.
-/

namespace BetterParsec

inductive FileTree.Holds : FileTree → List String → List UInt8 → Prop where
  | file (contents : List UInt8) : Holds (.file contents) [] contents
  | dir {entries : List (String × FileTree)} {name : String} {below : FileTree}
      {path : List String} {contents : List UInt8} (entry : (name, below) ∈ entries)
      (inside : Holds below path contents) : Holds (.dir entries) (name :: path) contents

theorem FileTree.holds_dir {entries : List (String × FileTree)} {path : List String}
    {contents : List UInt8} (holds : (FileTree.dir entries).Holds path contents) :
    ∃ name below rest, path = name :: rest ∧ (name, below) ∈ entries ∧
      below.Holds rest contents := by
  cases holds with
  | dir entry inside => exact ⟨_, _, _, rfl, entry, inside⟩

theorem FileTree.get_append (tree : FileTree) (path rest : List String) :
    tree.get (path ++ rest) = (tree.get path).bind fun below => below.get rest := by
  induction path generalizing tree with
  | nil => rw [List.nil_append, FileTree.get, Option.bind_some]
  | cons name path ih =>
    cases tree with
    | file contents => rfl
    | dir entries =>
      rw [List.cons_append, FileTree.get, FileTree.get]
      split
      · exact ih _
      · rfl

theorem FileTree.holds_of_get {tree : FileTree} {path : List String} {contents : List UInt8}
    (found : tree.get path = some (.file contents)) : tree.Holds path contents := by
  induction path generalizing tree with
  | nil =>
    rw [FileTree.get] at found
    rw [Option.some.inj found]
    exact .file contents
  | cons name path ih =>
    cases tree with
    | file other => simp [FileTree.get] at found
    | dir entries =>
      rw [FileTree.get] at found
      split at found
      next below held =>
        have named := List.find?_some held
        have entry := List.mem_of_find?_eq_some held
        rw [← of_decide_eq_true named]
        exact .dir entry (ih found)
      · simp at found

-- No absolute prefix and no `..` between slashes of either kind.
structure SafeName (name : String) : Prop where
  relative : ∀ c ∈ name.toList.head?, c ≠ '/' ∧ c ≠ '\\'
  noDrive : hasDrive name.toList = false
  noParent : ['.', '.'] ∉ segments isSlash name.toList

theorem validateComponentName_iff (name : String) :
    validateComponentName name = .ok () ↔ SafeName name := by
  unfold validateComponentName
  constructor
  · intro valid
    split_ifs at valid with bad
    simp only [Bool.or_eq_true, not_or, Bool.not_eq_true] at bad
    refine ⟨fun c head => ?_, bad.1.2, fun parent => ?_⟩
    · have notSlash := bad.1.1
      rw [Option.mem_def.mp head] at notSlash
      simpa [isSlash] using notSlash
    · simpa using List.any_eq_false.mp bad.2 _ parent
  · intro safe
    rw [if_neg]
    simp only [Bool.or_eq_true, not_or, Bool.not_eq_true]
    refine ⟨⟨?_, safe.noDrive⟩, ?_⟩
    · cases head : name.toList.head? with
      | none => rfl
      | some c => simpa [isSlash] using safe.relative c head
    · rw [List.any_eq_false]
      rintro segment member
      simp only [decide_eq_true_eq]
      rintro rfl
      exact safe.noParent member

section Segments

variable {isSeparator finer : Char → Bool}

-- The first segment is only cut shorter if it holds a separator; the others keep their ends.
theorem segments_cut (implied : ∀ c, isSeparator c = true → finer c = true) (chars : List Char) :
    ∃ first rest first' rest', segments isSeparator chars = first :: rest ∧
      segments finer chars = first' :: rest' ∧
      ((∀ c ∈ first, finer c = false) → first = first') ∧
      ∀ segment ∈ rest, (∀ c ∈ segment, finer c = false) → segment ∈ rest' := by
  induction chars with
  | nil => exact ⟨[], [], [], [], rfl, rfl, fun _ => rfl, by simp⟩
  | cons c chars ih =>
    obtain ⟨first, rest, first', rest', coarse, fine, heads, tails⟩ := ih
    have later (segment : List Char) (member : segment ∈ first :: rest)
        (plain : ∀ c ∈ segment, finer c = false) : segment ∈ first' :: rest' := by
      rcases List.mem_cons.mp member with rfl | member
      · rw [heads plain]
        exact List.mem_cons_self
      · exact List.mem_cons_of_mem _ (tails segment member plain)
    simp only [segments, coarse, fine]
    cases separates : isSeparator c with
    | true =>
      simp only [implied c separates, if_true]
      exact ⟨[], first :: rest, [], first' :: rest', rfl, rfl, fun _ => rfl, later⟩
    | false =>
      cases cuts : finer c with
      | true =>
        refine ⟨c :: first, rest, [], first' :: rest', rfl, rfl, fun plain => ?_,
          fun segment member plain => List.mem_cons_of_mem _ (tails segment member plain)⟩
        simp [cuts] at plain
      | false =>
        refine ⟨c :: first, rest, c :: first', rest', rfl, rfl, fun plain => ?_, tails⟩
        rw [heads fun other member => plain other (List.mem_cons_of_mem _ member)]

/-- A segment without separators stays a segment when there are more of them. -/
theorem segments_finer (implied : ∀ c, isSeparator c = true → finer c = true)
    {chars segment : List Char} (member : segment ∈ segments isSeparator chars)
    (plain : ∀ c ∈ segment, finer c = false) : segment ∈ segments finer chars := by
  obtain ⟨first, rest, first', rest', coarse, fine, heads, tails⟩ := segments_cut implied chars
  rw [coarse] at member
  rw [fine]
  rcases List.mem_cons.mp member with rfl | member
  · rw [heads plain]
    exact List.mem_cons_self
  · exact List.mem_cons_of_mem _ (tails segment member plain)

end Segments

namespace FileSystem

variable {fs : FileSystem}

theorem resolve_get {place target : List String} {path : List (List Char)} {node : FileTree}
    (resolved : fs.resolve place path = some (target, node)) : fs.root.get target = some node := by
  induction path generalizing place with
  | nil =>
    rw [resolve, Option.map_eq_some_iff] at resolved
    obtain ⟨found, held, same⟩ := resolved
    obtain ⟨rfl, rfl⟩ := Prod.mk.inj same
    exact held
  | cons segment rest ih =>
    rw [resolve] at resolved
    split at resolved
    · split_ifs at resolved
      · exact ih resolved
      · exact ih resolved
      · split at resolved
        · exact ih resolved
        · simp at resolved
    all_goals simp at resolved

/-- A path without `..` leads nowhere but down. -/
theorem resolve_inside {place target : List String} {path : List (List Char)} {node : FileTree}
    (noParent : ['.', '.'] ∉ path) (resolved : fs.resolve place path = some (target, node)) :
    place <+: target := by
  induction path generalizing place with
  | nil =>
    rw [resolve, Option.map_eq_some_iff] at resolved
    obtain ⟨found, held, same⟩ := resolved
    obtain ⟨rfl, -⟩ := Prod.mk.inj same
    exact List.prefix_rfl
  | cons segment rest ih =>
    have below : ['.', '.'] ∉ rest := fun member => noParent (List.mem_cons_of_mem _ member)
    rw [resolve] at resolved
    split at resolved
    · split_ifs at resolved with stays parent
      · exact ih below resolved
      · exact absurd (parent ▸ List.mem_cons_self) noParent
      · split at resolved
        · exact (List.prefix_append place _).trans (ih below resolved)
        · simp at resolved
    all_goals simp at resolved

/-- A safe name is looked for below the staged directory. -/
theorem resolveJoined_inside {stagedDir target : List String} {name : String} {node : FileTree}
    (safe : SafeName name) (resolved : fs.resolveJoined stagedDir name = some (target, node)) :
    stagedDir <+: target ∧ fs.root.get target = some node := by
  have relative : name.toList.head?.any fs.os.isSeparator = false := by
    cases head : name.toList.head? with
    | none => rfl
    | some c =>
      obtain ⟨notSlash, notBackslash⟩ := safe.relative c head
      rw [Option.any_some, Bool.eq_false_iff]
      intro separates
      exact (fs.os.separators c separates).elim notSlash notBackslash
  have noParent : ['.', '.'] ∉ segments fs.os.isSeparator name.toList := by
    intro member
    refine safe.noParent (segments_finer (fun c separates => ?_) member (by simp [isSlash]))
    simpa [isSlash] using fs.os.separators c separates
  rw [resolveJoined, relative] at resolved
  exact ⟨resolve_inside noParent resolved, resolve_get resolved⟩

end FileSystem

section Walk

variable (fs : FileSystem) (listed : List String)

def Allowed (path : List String) : Prop :=
  relativeName fs path = manifestFileName ∨ relativeName fs path ∈ listed

variable {fs listed}

theorem walkEntries_ok {path : List String} {entries : List (String × FileTree)}
    {stack next : List (List String × List (String × FileTree))}
    (walked : walkEntries fs listed path entries stack = .ok next) :
    (∀ name contents, (name, .file contents) ∈ entries → Allowed fs listed (path ++ [name])) ∧
      ∀ top, top ∈ next ↔ top ∈ stack ∨
        ∃ name below, (name, .dir below) ∈ entries ∧ top = (path ++ [name], below) := by
  induction entries generalizing stack with
  | nil =>
    rw [walkEntries] at walked
    simp [Except.ok.inj walked]
  | cons entry rest ih =>
    obtain ⟨name, below⟩ := entry
    cases below with
    | file contents =>
      have allowed : Allowed fs listed (path ++ [name]) ∧
          walkEntries fs listed path rest stack = .ok next := by
        rw [walkEntries] at walked
        split_ifs at walked with isManifest isListed
        · exact ⟨.inl isManifest, walked⟩
        · exact ⟨.inr isListed, walked⟩
      obtain ⟨files, tops⟩ := ih allowed.2
      refine ⟨fun other held member => ?_, fun top => ?_⟩
      · rcases List.mem_cons.mp member with same | member
        · rw [(Prod.mk.inj same).1]
          exact allowed.1
        · exact files other held member
      · rw [tops top]
        simp
    | dir entries =>
      rw [walkEntries] at walked
      obtain ⟨files, tops⟩ := ih walked
      refine ⟨fun other held member => files other held (by simpa using member), fun top => ?_⟩
      rw [tops top]
      simp only [List.mem_cons]
      constructor
      · rintro ((rfl | inStack) | ⟨other, inner, member, rfl⟩)
        · exact .inr ⟨name, entries, .inl rfl, rfl⟩
        · exact .inl inStack
        · exact .inr ⟨other, inner, .inr member, rfl⟩
      · rintro (inStack | ⟨other, inner, same | member, rfl⟩)
        · exact .inl (.inr inStack)
        · obtain ⟨rfl, inner⟩ := Prod.mk.inj same
          exact .inl (.inl (by rw [FileTree.dir.inj inner]))
        · exact .inr ⟨other, inner, member, rfl⟩

theorem walkEntries_of_allowed {path : List String} {entries : List (String × FileTree)}
    (files : ∀ name contents, (name, .file contents) ∈ entries →
      Allowed fs listed (path ++ [name]))
    (stack : List (List String × List (String × FileTree))) :
    ∃ next, walkEntries fs listed path entries stack = .ok next := by
  induction entries generalizing stack with
  | nil => exact ⟨stack, rfl⟩
  | cons entry rest ih =>
    have later := ih fun name contents member => files name contents (List.mem_cons_of_mem _ member)
    obtain ⟨name, below⟩ := entry
    cases below with
    | dir entries => exact later _
    | file contents =>
      rw [walkEntries]
      obtain isManifest | isListed := files name contents List.mem_cons_self
      · rw [if_pos isManifest]
        exact later stack
      · split_ifs
        all_goals exact later stack

/-- The walk accepts exactly if every file below the directories on the stack is allowed. -/
theorem walk_ok_iff (stack : List (List String × List (String × FileTree))) :
    walk fs listed stack = .ok () ↔ ∀ top ∈ stack, ∀ path contents,
      (FileTree.dir top.2).Holds path contents → Allowed fs listed (top.1 ++ path) := by
  induction stack using walk.induct fs listed with
  | case1 => simp [walk]
  | case2 path entries rest error walked =>
    have refused : walk fs listed ((path, entries) :: rest) = .error error := by
      rw [walk]
      split
      next other found => rw [Except.error.inj (found.symm.trans walked)]
      next other found => exact absurd (found.symm.trans walked) (by simp)
    rw [refused]
    refine ⟨fun ok => by simp at ok, fun allowed => ?_⟩
    obtain ⟨next, accepted⟩ := walkEntries_of_allowed (fun name contents member =>
      allowed (path, entries) List.mem_cons_self [name] contents (.dir member (.file contents))) rest
    simp [walked] at accepted
  | case3 path entries rest next walked ih =>
    have continued : walk fs listed ((path, entries) :: rest) = walk fs listed next := by
      rw [walk]
      split
      next other found => exact absurd (found.symm.trans walked) (by simp)
      next other found => rw [Except.ok.inj (found.symm.trans walked)]
    rw [continued, ih]
    obtain ⟨files, tops⟩ := walkEntries_ok walked
    constructor
    · intro allowed top member below contents holds
      rcases List.mem_cons.mp member with rfl | member
      · obtain ⟨name, node, below, rfl, entry, inside⟩ := FileTree.holds_dir holds
        cases node with
        | file held =>
          cases inside
          exact files name contents entry
        | dir inner =>
          have top := (tops (path ++ [name], inner)).mpr (.inr ⟨name, inner, entry, rfl⟩)
          simpa using allowed _ top below contents inside
      · exact allowed top ((tops top).mpr (.inl member)) below contents holds
    · intro allowed top member below contents holds
      obtain inRest | ⟨name, inner, entry, rfl⟩ := (tops top).mp member
      · exact allowed top (List.mem_cons_of_mem _ inRest) below contents holds
      · have whole := allowed (path, entries) List.mem_cons_self (name :: below) contents
          (.dir entry holds)
        simpa using whole

end Walk

section Names

-- The path of a file below the staged directory, with slashes.
def slashPath (path : List String) : String :=
  slashNormalised (String.ofList (['/'].intercalate (path.map String.toList)))

theorem relativeName_eq (fs : FileSystem) (path : List String) :
    relativeName fs path = slashPath path := by
  have main : toSlash fs.os.mainSeparator = '/' := by
    obtain same | same := fs.os.main <;> rw [same] <;> rfl
  have joined (names : List (List Char)) : ([fs.os.mainSeparator].intercalate names).map toSlash =
      (['/'].intercalate names).map toSlash := by
    induction names with
    | nil => rfl
    | cons name rest ih =>
      cases rest with
      | nil => simp
      | cons next rest =>
        rw [List.intercalate_cons_cons, List.intercalate_cons_cons, List.map_append,
          List.map_append, List.map_append, List.map_append, ih]
        simp [main, show toSlash '/' = '/' from rfl]
  rw [relativeName, slashPath, slashNormalised, slashNormalised, String.toList_ofList,
    String.toList_ofList, joined]

theorem toSlash_of_ne {c : Char} (plain : toSlash c ≠ '/') : toSlash c = c := by
  unfold toSlash at plain ⊢
  split_ifs with backslash
  · simp [backslash] at plain
  · rfl

/-- Only the manifest file at the root has its name. -/
theorem slashPath_manifest {path : List String} (nonempty : path ≠ []) :
    slashPath path = manifestFileName ↔ path = [manifestFileName] := by
  refine ⟨fun same => ?_, fun same => by rw [same]; rfl⟩
  have chars := congrArg String.toList same
  rw [slashPath, slashNormalised, String.toList_ofList, String.toList_ofList] at chars
  have plain : ∀ c ∈ (['/'].intercalate (path.map String.toList)).map toSlash, c ≠ '/' := by
    rw [chars]
    simp [manifestFileName]
  cases path with
  | nil => exact absurd rfl nonempty
  | cons name rest =>
    cases rest with
    | nil =>
      simp only [List.map_cons, List.map_nil, List.intercalate_singleton] at chars plain
      have unchanged : name.toList.map toSlash = name.toList :=
        (List.map_congr_left (g := id) fun c member =>
          toSlash_of_ne (plain _ (List.mem_map_of_mem member))).trans (List.map_id _)
      rw [unchanged] at chars
      rw [String.toList_inj.mp chars]
    | cons next rest =>
      refine absurd rfl (plain '/' ?_)
      rw [List.map_cons, List.map_cons, List.intercalate_cons_cons]
      simp [show toSlash '/' = '/' from rfl]

end Names

section Consistency

variable (seen : String → Option (String × UInt64)) (components : List ComponentEntry)

-- What was seen of the names of these components is what they say.
def Seen : Prop :=
  ∀ component ∈ components, ∀ entry ∈ seen component.name,
    entry = (component.sha256, component.size)

-- No two of the components share a name and disagree.
def Agree : Prop :=
  ∀ left ∈ components, ∀ right ∈ components, left.name = right.name →
    left.sha256 = right.sha256 ∧ left.size = right.size

variable {seen components}

theorem Manifest.checkConsistent_cons {component : ComponentEntry} :
    checkConsistent seen (component :: components) = .ok () ↔
      (∀ entry ∈ seen component.name, entry = (component.sha256, component.size)) ∧
        checkConsistent (Function.update seen component.name
          (some (component.sha256, component.size))) components = .ok () := by
  rw [checkConsistent]
  cases found : seen component.name with
  | none => simp
  | some entry =>
    obtain ⟨sha256, size⟩ := entry
    simp only [Option.mem_def, Option.some.injEq, forall_eq', Prod.mk.injEq]
    split_ifs with differs
    · refine ⟨fun ok => by simp at ok, fun same => ?_⟩
      exact (differs.elim (fun other => other same.1.1) fun other => other same.1.2).elim
    · rw [not_or, not_not, not_not] at differs
      exact ⟨fun ok => ⟨differs, ok⟩, fun both => both.2⟩

theorem seen_update {component : ComponentEntry} :
    Seen (Function.update seen component.name (some (component.sha256, component.size)))
        components ↔
      ∀ other ∈ components,
        (other.name = component.name →
          component.sha256 = other.sha256 ∧ component.size = other.size) ∧
        (other.name ≠ component.name →
          ∀ entry ∈ seen other.name, entry = (other.sha256, other.size)) := by
  refine forall₂_congr fun other _ => ?_
  by_cases same : other.name = component.name
  · simp [same]
  · simp [same, Function.update_of_ne]

/-- The check compares every component with the last one of its name. -/
theorem Manifest.checkConsistent_ok_iff :
    checkConsistent seen components = .ok () ↔ Seen seen components ∧ Agree components := by
  induction components generalizing seen with
  | nil => simp [checkConsistent, Seen, Agree]
  | cons component rest ih =>
    rw [checkConsistent_cons, ih, seen_update]
    constructor
    · rintro ⟨first, others, agree⟩
      constructor
      · intro other member entry held
        rcases List.mem_cons.mp member with rfl | member
        · exact first entry held
        · by_cases same : other.name = component.name
          · obtain ⟨sha256, size⟩ := (others other member).1 same
            rw [first entry (same ▸ held), sha256, size]
          · exact (others other member).2 same entry held
      · intro left inLeft right inRight same
        rcases List.mem_cons.mp inLeft with isLeft | leftRest
        · rcases List.mem_cons.mp inRight with isRight | rightRest
          · exact isLeft ▸ isRight ▸ ⟨rfl, rfl⟩
          · exact isLeft ▸ (others right rightRest).1 (isLeft ▸ same.symm)
        · rcases List.mem_cons.mp inRight with isRight | rightRest
          · obtain ⟨sha256, size⟩ := (others left leftRest).1 (isRight ▸ same)
            exact isRight ▸ ⟨sha256.symm, size.symm⟩
          · exact agree left leftRest right rightRest same
    · rintro ⟨known, agree⟩
      refine ⟨known component List.mem_cons_self, fun other member => ⟨fun same => ?_, fun _ => ?_⟩,
        fun left inLeft right inRight => ?_⟩
      · exact agree component List.mem_cons_self other (List.mem_cons_of_mem _ member) same.symm
      · exact known other (List.mem_cons_of_mem _ member)
      · exact agree left (List.mem_cons_of_mem _ inLeft) right (List.mem_cons_of_mem _ inRight)

end Consistency

section Exact

variable {Key : Type} (fs : FileSystem) (crypto : Crypto Key) (stagedDir : List String)
  (entries : List (String × FileTree)) (signed : SignedManifest) (trustRoot : Key)

-- The signature is one of the trusted key over the canonical bytes.
def SignatureMatches : Prop :=
  ∃ signature bytes, crypto.hexDecode signed.signature = .ok signature ∧ signature.length = 64 ∧
    signed.manifest.canonicalBytes = .ok bytes ∧ crypto.verify trustRoot bytes signature = true

-- The name leads to a file inside the staged directory of the listed size and hash.
def ComponentPresent (component : ComponentEntry) : Prop :=
  ∃ path contents, (FileTree.dir entries).Holds path contents ∧
    fs.resolveJoined stagedDir component.name = some (stagedDir ++ path, .file contents) ∧
    contents.length = component.size.toNat ∧
    eqIgnoreAsciiCase (crypto.sha256 contents) component.sha256 = true

structure ExactSet (running : ProtocolVersions) : Prop where
  signature : SignatureMatches crypto signed trustRoot
  protocol : signed.manifest.protocol = running
  listed : ∀ path contents, (FileTree.dir entries).Holds path contents →
    path ≠ [manifestFileName] →
      ∃ component ∈ signed.manifest.components, slashNormalised component.name = slashPath path
  components : ∀ component ∈ signed.manifest.components, SafeName component.name ∧
    ComponentPresent fs crypto stagedDir entries component
  agree : Agree signed.manifest.components

variable {fs crypto stagedDir entries signed trustRoot}

theorem bind_ok_iff {E A : Type} {first : Except E Unit} {next : Except E A} {value : A} :
    (first >>= fun _ => next) = .ok value ↔ first = .ok () ∧ next = .ok value := by
  cases first with
  | error error => simp [bind, Except.bind]
  | ok _ => simp [bind, Except.bind]

theorem verifySignature_ok_iff :
    verifySignature crypto signed trustRoot = .ok () ↔
      SignatureMatches crypto signed trustRoot := by
  unfold verifySignature SignatureMatches
  cases decoded : crypto.hexDecode signed.signature with
  | error message => simp
  | ok signature =>
    cases bytes : signed.manifest.canonicalBytes with
    | error error => by_cases length : signature.length = 64 <;> simp [length]
    | ok bytes => by_cases length : signature.length = 64 <;> simp [length]

theorem verifyComponentFile_ok_iff (present : fs.root.get stagedDir = some (.dir entries))
    {component : ComponentEntry} (safe : SafeName component.name) :
    verifyComponentFile fs crypto stagedDir component.name component.sha256 component.size = .ok () ↔
      ComponentPresent fs crypto stagedDir entries component := by
  unfold verifyComponentFile
  constructor
  · intro verified
    split at verified
    · simp at verified
    · split_ifs at verified
    next place contents resolved =>
      split_ifs at verified with size hash
      obtain ⟨⟨path, rfl⟩, found⟩ := FileSystem.resolveJoined_inside safe resolved
      rw [FileTree.get_append, present, Option.bind_some] at found
      exact ⟨path, contents, FileTree.holds_of_get found, resolved, by simpa using size,
        by simpa using hash⟩
  · rintro ⟨path, contents, -, resolved, size, hash⟩
    simp [resolved, size, hash]

theorem verifyComponents_ok_iff (present : fs.root.get stagedDir = some (.dir entries))
    (components : List ComponentEntry) :
    verifyComponents fs crypto stagedDir components = .ok () ↔
      ∀ component ∈ components, SafeName component.name ∧
        ComponentPresent fs crypto stagedDir entries component := by
  induction components with
  | nil => simp [verifyComponents]
  | cons component rest ih =>
    rw [List.forall_mem_cons, ← ih, verifyComponents]
    cases valid : validateComponentName component.name with
    | error error =>
      have unsafeName : ¬ SafeName component.name := fun safe => by
        simp [(validateComponentName_iff _).mpr safe] at valid
      simp [bind, Except.bind, unsafeName]
    | ok _ =>
      have safe := (validateComponentName_iff component.name).mp valid
      rw [← verifyComponentFile_ok_iff present safe]
      cases verifyComponentFile fs crypto stagedDir component.name component.sha256
          component.size with
      | error error => simp [bind, Except.bind]
      | ok _ => simp [bind, Except.bind, safe]

theorem checkNoUnlistedFiles_ok_iff (present : fs.root.get stagedDir = some (.dir entries)) :
    checkNoUnlistedFiles fs stagedDir signed = .ok () ↔
      ∀ path contents, (FileTree.dir entries).Holds path contents → path ≠ [manifestFileName] →
        ∃ component ∈ signed.manifest.components,
          slashNormalised component.name = slashPath path := by
  rw [checkNoUnlistedFiles, present, walk_ok_iff]
  simp only [List.mem_singleton, forall_eq, List.nil_append, Allowed, relativeName_eq,
    List.mem_map]
  refine forall₂_congr fun path contents => forall_congr' fun holds => ?_
  have nonempty : path ≠ [] := by
    obtain ⟨name, below, rest, rfl, -⟩ := FileTree.holds_dir holds
    simp
  rw [slashPath_manifest nonempty, or_iff_not_imp_left]

theorem Manifest.checkProtocolCompatible_ok_iff {manifest : Manifest}
    {running : ProtocolVersions} :
    manifest.checkProtocolCompatible running = .ok () ↔ manifest.protocol = running := by
  obtain ⟨fec, codes⟩ := running
  unfold checkProtocolCompatible
  split_ifs with differs
  · refine ⟨fun ok => by simp at ok, fun same => ?_⟩
    rw [same] at differs
    simp at differs
  · rw [not_or, not_not, not_not] at differs
    refine ⟨fun _ => ?_, fun _ => rfl⟩
    cases same : manifest.protocol with
    | mk fec' codes' => simp_all

/-- Verification accepts exactly the sets that are what their signed manifest lists. -/
theorem verifyStagedSet_ok_iff (present : fs.root.get stagedDir = some (.dir entries))
    (running : ProtocolVersions) :
    (∃ token, verifyStagedSet fs crypto stagedDir signed trustRoot running = .ok token) ↔
      ExactSet fs crypto stagedDir entries signed trustRoot running := by
  have accepted : (∃ token, verifyStagedSet fs crypto stagedDir signed trustRoot running =
      .ok token) ↔ verifySignature crypto signed trustRoot = .ok () ∧
        signed.manifest.checkInternallyConsistent = .ok () ∧
        signed.manifest.checkProtocolCompatible running = .ok () ∧
        verifyComponents fs crypto stagedDir signed.manifest.components = .ok () ∧
        checkNoUnlistedFiles fs stagedDir signed = .ok () := by
    simp only [verifyStagedSet, bind_ok_iff]
    constructor
    · rintro ⟨token, signature, consistent, protocol, components, listed, -⟩
      exact ⟨signature, consistent, protocol, components, listed⟩
    · rintro ⟨signature, consistent, protocol, components, listed⟩
      exact ⟨⟨⟩, signature, consistent, protocol, components, listed, rfl⟩
  rw [accepted, verifySignature_ok_iff, Manifest.checkInternallyConsistent,
    Manifest.checkConsistent_ok_iff, Manifest.checkProtocolCompatible_ok_iff,
    verifyComponents_ok_iff present, checkNoUnlistedFiles_ok_iff present]
  constructor
  · rintro ⟨signature, ⟨-, agree⟩, protocol, components, listed⟩
    exact ⟨signature, protocol, listed, components, agree⟩
  · intro exactly
    exact ⟨exactly.signature, ⟨fun _ _ _ none => by simp at none, exactly.agree⟩,
      exactly.protocol, exactly.components, exactly.listed⟩

end Exact

theorem eqIgnoreAsciiCase_ofList (left right : List Char) :
    eqIgnoreAsciiCase (String.ofList left) (String.ofList right) =
      decide (left.map Char.toLower = right.map Char.toLower) := by
  rw [eqIgnoreAsciiCase, String.toList_ofList, String.toList_ofList]

-- The neutral element of the curve as the key: it accepts this signature over any bytes.
def neutralSignature : List UInt8 := 1 :: List.replicate 63 0

def neutralText : String := "01" ++ String.ofList (List.replicate 126 '0')

def neutralCrypto : Crypto Unit where
  hexDecode text :=
    if text = neutralText then .ok neutralSignature else .error "Odd number of digits"
  sha256 _ := "e3b0c44298fc1c149afbf4c8996fb92427ae41e4649b934ca495991b7852b855"
  verify _ _ signature := signature = neutralSignature

def emptyLibrary : List (String × FileTree) :=
  [("manifest.json", .file [123, 125]), ("bin", .dir [("empty.dll", .file [])])]

def emptyLibraryHost : FileSystem := ⟨.unix, .dir [("staged", .dir emptyLibrary)]⟩

def emptyLibraryManifest : SignedManifest where
  manifest :=
    { setVersion := "1.0.0"
      protocol := ⟨2, 1⟩
      components := [⟨"bin//empty.dll", .host,
        "E3B0C44298FC1C149AFBF4C8996FB92427AE41E4649B934CA495991B7852B855", 0⟩,
        ⟨"bin/empty.dll", .client,
          "e3b0c44298fc1c149afbf4c8996fb92427ae41e4649b934ca495991b7852b855", 0⟩]
      signingKeyId := "dev-trust-root-v1" }
  signature := neutralText

theorem emptyLibrary_exact : ExactSet emptyLibraryHost neutralCrypto ["staged"] emptyLibrary
    emptyLibraryManifest () ⟨2, 1⟩ := by
  have held : (FileTree.dir emptyLibrary).Holds ["bin", "empty.dll"] [] :=
    .dir (List.mem_cons_of_mem _ List.mem_cons_self) (.dir List.mem_cons_self (.file []))
  have decoded : neutralCrypto.hexDecode emptyLibraryManifest.signature = .ok neutralSignature := by
    simp only [neutralCrypto, emptyLibraryManifest, if_true]
  obtain ⟨text, -, canonical⟩ := emptyLibraryManifest.manifest.canonicalBytes_ok
  have upper : eqIgnoreAsciiCase (neutralCrypto.sha256 [])
      "E3B0C44298FC1C149AFBF4C8996FB92427AE41E4649B934CA495991B7852B855" = true :=
    (eqIgnoreAsciiCase_ofList _ _).trans (by decide +kernel)
  refine ⟨⟨neutralSignature, _, decoded, rfl, canonical, by simp [neutralCrypto]⟩, rfl,
    fun path contents holds other => ?_, ?_, ?_⟩
  · obtain ⟨name, below, rest, rfl, entry, inside⟩ := FileTree.holds_dir holds
    simp only [emptyLibrary, List.mem_cons, Prod.mk.injEq, List.not_mem_nil, or_false] at entry
    obtain ⟨rfl, rfl⟩ | ⟨rfl, rfl⟩ := entry
    · cases inside
      exact absurd rfl other
    · obtain ⟨name, below, rest, rfl, entry, inside⟩ := FileTree.holds_dir inside
      obtain ⟨rfl, rfl⟩ := Prod.mk.inj (List.mem_singleton.mp entry)
      cases inside
      exact ⟨_, List.mem_cons_of_mem _ List.mem_cons_self, by decide +kernel⟩
  · refine List.forall_mem_cons.mpr ⟨?_, List.forall_mem_singleton.mpr ?_⟩
    · exact ⟨(validateComponentName_iff _).mp rfl, _, _, held, by rfl, rfl, upper⟩
    · exact ⟨(validateComponentName_iff _).mp rfl, _, _, held, by rfl, rfl, decide_eq_true rfl⟩
  · intro left inLeft right inRight same
    simp only [emptyLibraryManifest, List.mem_cons, List.not_mem_nil, or_false] at inLeft inRight
    obtain rfl | rfl := inLeft <;> obtain rfl | rfl := inRight <;> simp at same ⊢

theorem verifyStagedSet_ok_iff_empty_library :
    ∃ token, verifyStagedSet emptyLibraryHost neutralCrypto ["staged"] emptyLibraryManifest ()
      ⟨2, 1⟩ = .ok token :=
  have present : emptyLibraryHost.root.get ["staged"] = some (.dir emptyLibrary) := rfl
  (verifyStagedSet_ok_iff present ⟨2, 1⟩).mpr emptyLibrary_exact

end BetterParsec
