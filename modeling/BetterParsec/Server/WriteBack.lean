import BetterParsec.Server.StorageMoves

set_option autoImplicit false
set_option linter.all false

/-!
# Write-back of the store

Every change the file does not hold yet is owed a write: its request has not called
`force_write`, or the slot of the channel is full, or the writer task has not yet
read what changed. Where none of these is the case, the file is the store.
-/

namespace BetterParsec

inductive Entry where
  | user (user : V3User)
  | host (host : V2Host)
  | role (role : V3Role)

namespace V3

def lookup (data : V3) : EntryKey → Option Entry
  | .user id => (data.users.get? id).map .user
  | .host id => (data.hosts.get? id).map .host
  | .role id => (data.roles.get? id).map .role

@[simp] theorem lookup_empty (key : EntryKey) : V3.empty.lookup key = none := by
  cases key <;> rfl

theorem mem_keys (data : V3) (key : EntryKey) : key ∈ data.keys ↔ data.lookup key ≠ none := by
  cases key <;>
    simp only [keys, lookup, List.mem_append, List.mem_map, OrdMap.mem_keys, EntryKey.user.injEq,
      EntryKey.host.injEq, EntryKey.role.injEq, exists_eq_right, reduceCtorEq, and_false,
      exists_false, or_false, false_or, ne_eq, Option.map_eq_none_iff] <;>
    exact Option.ne_none_iff_exists'.symm

theorem eq_of_lookup {data other : V3} (same : ∀ key, data.lookup key = other.lookup key) :
    data = other := by
  obtain ⟨users, hosts, roles⟩ := data
  obtain ⟨users', hosts', roles'⟩ := other
  have sameUsers : users = users' :=
    OrdMap.ext _ _ (fun id =>
      Option.map_injective (fun _ _ => Entry.user.inj) (same (.user id)))
  have sameHosts : hosts = hosts' :=
    OrdMap.ext _ _ (fun id =>
      Option.map_injective (fun _ _ => Entry.host.inj) (same (.host id)))
  have sameRoles : roles = roles' :=
    OrdMap.ext _ _ (fun id =>
      Option.map_injective (fun _ _ => Entry.role.inj) (same (.role id)))
  rw [sameUsers, sameHosts, sameRoles]

theorem lookup_copyEntry (copy source : V3) (key other : EntryKey)
    (held : source.lookup key ≠ none) :
    (copy.copyEntry source key).lookup other =
      if other = key then source.lookup key else copy.lookup other := by
  cases key with
  | user id =>
    cases found : source.users.get? id with
    | none => simp [lookup, found] at held
    | some user =>
      cases other <;> simp [copyEntry, lookup, found, OrdMap.get?_insert]
      split_ifs <;> rfl
  | host id =>
    cases found : source.hosts.get? id with
    | none => simp [lookup, found] at held
    | some host =>
      cases other <;> simp [copyEntry, lookup, found, OrdMap.get?_insert]
      split_ifs <;> rfl
  | role id =>
    cases found : source.roles.get? id with
    | none => simp [lookup, found] at held
    | some role =>
      cases other <;> simp [copyEntry, lookup, found, OrdMap.get?_insert]
      split_ifs <;> rfl

end V3

namespace JsonStorage

-- A change is still to be announced to the writer task, or its announcement to be received.
def Owed (storage : JsonStorage) : Prop :=
  storage.queued = true ∨
    ∃ ticket stage, storage.requests.get? ticket = some stage ∧ stage.unsaved = true

-- What the writer task has taken of the store is what the store holds.
def Agrees (storage : JsonStorage) : Prop :=
  match storage.writer with
  | .waiting => storage.file = storage.data
  | .received => True
  | .reading unread copy => ∀ key, (key ∈ unread → storage.data.lookup key ≠ none) ∧
      (key ∉ unread → copy.lookup key = storage.data.lookup key)
  | .writing copy => copy = storage.data

def WrittenBack (storage : JsonStorage) : Prop := ¬ storage.Owed → storage.Agrees

variable {storage : JsonStorage} {ticket now : Nat} {draw : Draw} {stage : Stage}

theorem Owed.others (owed : storage.Owed) (found : storage.requests.get? ticket = some stage)
    (saved : stage.unsaved = false) {next : JsonStorage} (queued : next.queued = storage.queued)
    (others : ∀ other, other ≠ ticket →
      next.requests.get? other = storage.requests.get? other) : next.Owed := by
  obtain full | ⟨other, later, held, unsaved⟩ := owed
  · exact .inl (queued.trans full)
  · refine .inr ⟨other, later, (others other ?_).trans held, unsaved⟩
    rintro rfl
    rw [found] at held
    simp [← Option.some.inj held, saved] at unsaved

theorem owed_change (data : V3) (next : AfterWrite) :
    (storage.change ticket data next).Owed :=
  .inr ⟨ticket, .changed next, by simp [change, OrdMap.get?_insert], rfl⟩

/-- A section ends before its `force_write`, fills the slot, or leaves the store alone. -/
theorem Move.owed {next : JsonStorage} {events : List StorageEvent}
    (found : storage.requests.get? ticket = some stage)
    (move : Move storage ticket draw now stage next events) :
    next.Owed ∨
      (storage.Owed → next.Owed) ∧ next.data = storage.data ∧ next.writer = storage.writer ∧
        next.file = storage.file := by
  have others := move.others.2
  cases move with
  | wait => exact .inr ⟨id, rfl, rfl, rfl⟩
  | ended reply saved | moved following saved =>
    exact .inr ⟨fun owed => owed.others found saved rfl others, rfl, rfl, rfl⟩
  | userAdded | userModified | userRemoved | roleRemoved | roleWritten | hostsWritten
  | unchanged => exact .inl (owed_change _ _)
  | roleUsersRemoved roleId =>
    exact .inl (.inr ⟨ticket, .usersRemoved roleId, by simp [removeRoleUsers, OrdMap.get?_insert],
      rfl⟩)
  | sent | sentOn => exact .inl (.inl rfl)
  | sessionCreated | sessionRemoved | sessionsRemoved =>
    exact .inr ⟨fun owed => owed.others found rfl rfl others, rfl, rfl, rfl⟩

theorem WrittenBack.same (written : storage.WrittenBack) {next : JsonStorage}
    (owed : storage.Owed → next.Owed) (data : next.data = storage.data)
    (writer : next.writer = storage.writer) (file : next.file = storage.file) :
    next.WrittenBack := by
  intro settled
  have agrees := written (fun before => settled (owed before))
  rw [Agrees] at agrees ⊢
  rw [writer, data, file]
  exact agrees

/-- Reading one entry of the store brings the copy to it under that key. -/
theorem agrees_readEntry {unread : List EntryKey} {copy : V3} {key : EntryKey}
    (agrees : { storage with writer := .reading unread copy }.Agrees) (member : key ∈ unread) :
    { storage with
      writer := .reading (unread.erase key) (copy.copyEntry storage.data key) }.Agrees := by
  intro other
  have held := (agrees key).1 member
  refine ⟨fun still => (agrees other).1 (List.mem_of_mem_erase still), fun read => ?_⟩
  rw [V3.lookup_copyEntry copy storage.data key other held]
  split_ifs with same
  · rw [same]
  · exact (agrees other).2 (fun before => read ((List.mem_erase_of_ne same).mpr before))

theorem WrittenBack.step (written : storage.WrittenBack) (issued : storage.Issued)
    (config : WebServerConfig) (input : StorageStep) :
    (storage.step config input).1.WrittenBack := by
  cases input with
  | call request =>
    refine written.same (fun owed => ?_) rfl rfl rfl
    obtain full | ⟨other, later, held, unsaved⟩ := owed
    · exact .inl full
    · refine .inr ⟨other, later, ?_, unsaved⟩
      simp only [JsonStorage.step, JsonStorage.call, OrdMap.get?_insert]
      rw [if_neg, held]
      rintro rfl
      simp [issued _ le_rfl] at held
  | advance ticket draw now =>
    simp only [JsonStorage.step]
    split
    next stage found =>
      obtain owed | ⟨owed, data, writer, file⟩ :=
        (storage.advance_move ticket draw now config stage).owed found
      · exact fun settled => absurd owed settled
      · exact written.same owed data writer file
    · exact written
  | userBySession token now => exact written
  | sweepSessions now => exact written.same id rfl rfl rfl
  | receive =>
    simp only [JsonStorage.step]
    split
    · split_ifs
      · exact fun _ => trivial
      · exact written
    all_goals exact written
  | snapshot =>
    simp only [JsonStorage.step]
    split
    · intro _ key
      rw [V3.mem_keys]
      exact ⟨id, fun absent => by simpa using (not_not.mp absent).symm⟩
    all_goals exact written
  | readEntry key =>
    simp only [JsonStorage.step]
    split
    next unread copy reading =>
      split_ifs with member
      · intro settled
        have agrees := written settled
        rw [Agrees, reading] at agrees
        exact agrees_readEntry agrees member
      · exact written
    all_goals exact written
  | writeFile =>
    simp only [JsonStorage.step]
    split
    next copy reading =>
      intro settled
      have agrees := written settled
      rw [Agrees, reading] at agrees
      exact V3.eq_of_lookup (fun key => (agrees key).2 List.not_mem_nil)
    next copy writing =>
      intro settled
      have agrees := written settled
      rw [Agrees, writing] at agrees
      exact agrees
    all_goals exact written

-- The channel is empty, the writer waits in `recv`, and no request is between its change and its
-- `force_write`.
structure Settled (storage : JsonStorage) : Prop where
  empty : storage.queued = false
  waiting : storage.writer = .waiting
  sent : ∀ ticket stage, storage.requests.get? ticket = some stage → stage.unsaved = false

-- A role is added while the writer task reads for the one before, so the slot is filled again.
def writtenTwice : List StorageStep :=
  [.call (.addRole firstAdmin), .advance 0 ⟨some 1, none⟩ 0, .advance 0 ⟨some 1, none⟩ 0, .receive,
    .snapshot, .call (.addRole firstAdmin), .advance 1 ⟨some 2, none⟩ 0, .readEntry (.role 1),
    .advance 1 ⟨some 2, none⟩ 0, .writeFile, .writeFile, .receive, .snapshot, .readEntry (.role 2),
    .readEntry (.role 1), .writeFile, .writeFile]

end JsonStorage

end BetterParsec
