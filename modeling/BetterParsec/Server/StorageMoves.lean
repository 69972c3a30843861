import BetterParsec.Server.JsonStorage

set_option autoImplicit false
set_option linter.all false

/-!
# What one section of a request can do

The sections of all requests as moves: which part of the store a section changes,
what it is allowed to assume of its request, and where the request stands
afterwards. Every invariant of the store is derived from these.
-/

namespace BetterParsec

def StorageReply.isFirstLogin : StorageReply → Bool
  | firstLogin _ => true
  | done | roleAdded _ | userAdded _ | hostAdded _ | sessionToken _ | failed _ => false

def StorageStep.ofWriter : StorageStep → Bool
  | receive | snapshot | readEntry _ | writeFile => true
  | call _ | advance _ _ _ | userBySession _ _ | sweepSessions _ => false

namespace Stage

-- A change was made for which `force_write` is still to be called.
def unsaved : Stage → Bool
  | changed _ | usersRemoved _ => true
  | begun _ | noUserYet _ _ | adminMissing _ _ | adminKnown _ _ _ | nameFree _ _ | tokenFree _ _ _
  | listingHosts _ | assigningHosts _ _ => false

-- The request has inserted the first user and can only succeed.
def ownsFirst : Stage → Bool
  | changed (.firstUserAdded _) | changed (.hostAssigned _ _) | listingHosts _
  | assigningHosts _ _ => true
  | changed (.reply reply) => reply.isFirstLogin
  | begun _ | noUserYet _ _ | adminMissing _ _ | adminKnown _ _ _ | nameFree _ _ | usersRemoved _
  | tokenFree _ _ _ | changed (.adminAdded _ _ _) => false

def ofFirstLogin : Stage → Bool
  | begun (.tryAddFirstLogin _ _) | noUserYet _ _ | adminMissing _ _ | adminKnown _ _ _
  | nameFree _ true | changed (.adminAdded _ _ _) | changed (.firstUserAdded _)
  | changed (.hostAssigned _ _) | listingHosts _ | assigningHosts _ _ => true
  | begun _ | nameFree _ false | usersRemoved _ | tokenFree _ _ _ | changed (.reply _) => false

end Stage

namespace JsonStorage

inductive Move (storage : JsonStorage) (ticket : Nat) (draw : Draw) (now : Nat) :
    Stage → JsonStorage → List StorageEvent → Prop where
  | wait (stage : Stage) : Move storage ticket draw now stage storage []
  | ended {stage : Stage} (reply : StorageReply) (saved : stage.unsaved = false)
      (owner : reply.isFirstLogin → stage.ownsFirst) :
      Move storage ticket draw now stage (storage.reply ticket reply).1 (storage.reply ticket reply).2
  | moved {stage : Stage} (next : Stage) (saved : stage.unsaved = false)
      (clean : next.unsaved = false) (owner : next.ownsFirst = stage.ownsFirst)
      (kind : next.ofFirstLogin = stage.ofFirstLogin) :
      Move storage ticket draw now stage (storage.proceed ticket next) []
  | userAdded (user : V3User) (first : Bool) (id : UInt32) (drawn : draw.id = some id)
      (fresh : storage.data.users.get? id = none) :
      Move storage ticket draw now (.nameFree user first)
        (storage.change ticket (storage.putUser id user)
          (if first then .firstUserAdded id else .reply (.userAdded id))) [.userAdded id]
  | userModified (id : UInt32) (modify : UserModify) (user : V3User)
      (found : storage.data.users.get? id = some user) :
      Move storage ticket draw now (.begun (.modifyUser id modify))
        (storage.change ticket (storage.putUser id (modify.apply user)) (.reply .done)) []
  | userRemoved (id : UInt32) :
      Move storage ticket draw now (.begun (.removeUser id))
        (storage.change ticket { storage.data with users := storage.data.users.erase id }
          (.reply .done)) [.usersRemoved [id]]
  | roleUsersRemoved (roleId : UInt32) :
      Move storage ticket draw now (.begun (.removeRole roleId))
        (storage.removeRoleUsers ticket roleId).1 (storage.removeRoleUsers ticket roleId).2
  | roleRemoved (roleId : UInt32) :
      Move storage ticket draw now (.usersRemoved roleId)
        (storage.change ticket { storage.data with roles := storage.data.roles.erase roleId }
          (.reply .done)) []
  | roleWritten {stage : Stage} (roleId : UInt32) (role : V3Role) (next : AfterWrite)
      (saved : stage.unsaved = false) (owner : (Stage.changed next).ownsFirst = stage.ownsFirst)
      (kind : (Stage.changed next).ofFirstLogin = stage.ofFirstLogin) :
      Move storage ticket draw now stage (storage.change ticket (storage.putRole roleId role) next) []
  | hostsWritten {stage : Stage} (hosts : OrdMap UInt32 V2Host) (next : AfterWrite)
      (saved : stage.unsaved = false) (owner : (Stage.changed next).ownsFirst = stage.ownsFirst)
      (kind : (Stage.changed next).ofFirstLogin = stage.ofFirstLogin) :
      Move storage ticket draw now stage
        (storage.change ticket { storage.data with hosts := hosts } next) []
  | unchanged {stage : Stage} (reply : StorageReply) (foreign : stage.ofFirstLogin = false)
      (owner : reply.isFirstLogin = false) :
      Move storage ticket draw now stage (storage.change ticket storage.data (.reply reply)) []
  | sent {next : AfterWrite} (reply : StorageReply)
      (owner : reply.isFirstLogin → (Stage.changed next).ownsFirst) :
      Move storage ticket draw now (.changed next)
        ({ storage with queued := true }.reply ticket reply).1
        ({ storage with queued := true }.reply ticket reply).2
  | sentOn {next : AfterWrite} (stage : Stage) (clean : stage.unsaved = false)
      (owner : stage.ownsFirst = (Stage.changed next).ownsFirst)
      (kind : stage.ofFirstLogin = (Stage.changed next).ofFirstLogin) :
      Move storage ticket draw now (.changed next)
        ({ storage with queued := true }.proceed ticket stage) []
  | sessionCreated (token : SessionToken) (userId : UInt32) (expiration : Nat) :
      Move storage ticket draw now (.tokenFree token userId expiration)
        (storage.createSession ticket token ⟨now, expiration, userId⟩).1
        (storage.createSession ticket token ⟨now, expiration, userId⟩).2
  | sessionRemoved (token : SessionToken) :
      Move storage ticket draw now (.begun (.removeSessionToken token))
        (storage.removeSessionToken ticket token).1 (storage.removeSessionToken ticket token).2
  | sessionsRemoved (userId : UInt32) :
      Move storage ticket draw now (.begun (.removeAllUserSessionTokens userId))
        (storage.removeAllUserSessionTokens ticket userId).1
        (storage.removeAllUserSessionTokens ticket userId).2

def Inserts (storage : JsonStorage) (draw : Draw) : Prop :=
  ∃ id, id ∈ draw.id ∧ storage.data.users.get? id = none

instance decidableInserts (storage : JsonStorage) (draw : Draw) :
    Decidable (storage.Inserts draw) :=
  inferInstanceAs (Decidable (∃ _, _ ∧ _))

section Sections

variable (storage : JsonStorage) (ticket : Nat) (draw : Draw) (now : Nat)

/-- The drawing loop fails, draws again, or inserts under a free id. -/
theorem insertFresh_move {stage : Stage} (used : UInt32 → Bool)
    (insert : UInt32 → JsonStorage × List StorageEvent) (saved : stage.unsaved = false)
    (inserted : ∀ id, draw.id = some id → used id = false →
      Move storage ticket draw now stage (insert id).1 (insert id).2) :
    Move storage ticket draw now stage (storage.insertFresh ticket draw.id used insert).1
      (storage.insertFresh ticket draw.id used insert).2 := by
  cases drawn : draw.id with
  | none => exact .ended (.failed .openSsl) saved (by simp [StorageReply.isFirstLogin])
  | some id =>
    simp only [insertFresh]
    cases taken : used id with
    | true => exact .wait stage
    | false => simpa using inserted id drawn taken

theorem checkName_move {stage : Stage} (user : V3User) (first : Bool)
    (saved : stage.unsaved = false) (owner : stage.ownsFirst = false)
    (kind : stage.ofFirstLogin = first) :
    Move storage ticket draw now stage (storage.checkName ticket user first).1
      (storage.checkName ticket user first).2 := by
  unfold checkName
  split
  · exact .ended _ saved (by simp [StorageReply.isFirstLogin])
  · refine .moved _ saved rfl (by rw [owner]; rfl) ?_
    rw [kind]
    cases first <;> rfl

theorem addRole_move {stage : Stage} (role : V3Role) (next : UInt32 → AfterWrite)
    (saved : stage.unsaved = false)
    (owner : ∀ id, (Stage.changed (next id)).ownsFirst = stage.ownsFirst)
    (kind : ∀ id, (Stage.changed (next id)).ofFirstLogin = stage.ofFirstLogin) :
    Move storage ticket draw now stage (storage.addRole ticket draw role next).1
      (storage.addRole ticket draw role next).2 :=
  storage.insertFresh_move ticket draw now _ _ saved
    (fun id _ _ => .roleWritten id role (next id) saved (owner id) (kind id))

theorem begin_move (config : WebServerConfig) (request : StorageRequest) :
    Move storage ticket draw now (.begun request) (storage.begin config ticket draw request).1
      (storage.begin config ticket draw request).2 := by
  have refused (error : AppError) : (StorageReply.failed error).isFirstLogin →
      (Stage.begun request).ownsFirst := by simp [StorageReply.isFirstLogin]
  cases request with
  | addRole role =>
    exact storage.addRole_move ticket draw now role _ rfl (fun _ => rfl) (fun _ => rfl)
  | modifyRole roleId modify =>
    simp only [«begin», modifyRole]
    split
    · exact .ended _ rfl (refused _)
    · exact .roleWritten roleId _ (.reply .done) rfl rfl rfl
  | removeRole roleId => exact .roleUsersRemoved roleId
  | addUser user => exact storage.checkName_move ticket draw now user false rfl rfl rfl
  | modifyUser userId modify =>
    simp only [«begin», modifyUser]
    split
    · exact .ended _ rfl (refused _)
    · exact .userModified userId modify _ ‹_›
  | removeUser userId =>
    simp only [«begin», removeUser]
    split
    · exact .unchanged _ rfl rfl
    · exact .userRemoved userId
  | addHost host =>
    exact storage.insertFresh_move ticket draw now _ _ rfl
      (fun id _ _ => .hostsWritten _ (.reply (.hostAdded id)) rfl rfl rfl)
  | modifyHost hostId modify =>
    simp only [«begin», modifyHost]
    split
    · exact .ended _ rfl (refused _)
    · exact .hostsWritten _ (.reply .done) rfl rfl rfl
  | removeHost hostId =>
    simp only [«begin», removeHost]
    split
    · exact .ended _ rfl (refused _)
    · exact .hostsWritten _ (.reply .done) rfl rfl rfl
  | createSessionToken userId expiration =>
    simp only [«begin», drawToken]
    split
    · exact .ended _ rfl (refused _)
    · split_ifs
      · exact .wait _
      · exact .moved _ rfl rfl rfl rfl
  | removeSessionToken token => exact .sessionRemoved token
  | removeAllUserSessionTokens userId => exact .sessionsRemoved userId
  | tryAddFirstLogin username password =>
    simp only [«begin»]
    split_ifs
    · exact .ended _ rfl (refused _)
    · exact .ended _ rfl (refused _)
    · exact .moved _ rfl rfl rfl rfl

theorem forceWrite_move (config : WebServerConfig) (next : AfterWrite) :
    Move storage ticket draw now (.changed next) (storage.forceWrite config ticket next).1
      (storage.forceWrite config ticket next).2 := by
  cases next with
  | reply reply => exact .sent reply id
  | adminAdded username password roleId => exact .sentOn _ rfl rfl rfl
  | firstUserAdded userId =>
    simp only [forceWrite]
    split_ifs
    · exact .sentOn _ rfl rfl rfl
    · exact .sent _ (fun _ => rfl)
  | hostAssigned userId hosts => exact .sentOn _ rfl rfl rfl

/-- Every section of every request is one of the moves. -/
theorem advance_move (config : WebServerConfig) (stage : Stage) :
    Move storage ticket draw now stage (storage.advance config ticket draw now stage).1
      (storage.advance config ticket draw now stage).2 := by
  cases stage with
  | begun request => exact storage.begin_move ticket draw now config request
  | noUserYet username password =>
    simp only [advance]
    split
    · exact .moved _ rfl rfl rfl rfl
    · exact .moved _ rfl rfl rfl rfl
  | adminMissing username password =>
    exact storage.addRole_move ticket draw now _ _ rfl (fun _ => rfl) (fun _ => rfl)
  | adminKnown username password roleId =>
    simp only [advance, addFirstUser]
    split
    · exact .ended _ rfl (by simp [StorageReply.isFirstLogin])
    · split_ifs
      · exact .ended _ rfl (by simp [StorageReply.isFirstLogin])
      · exact storage.checkName_move ticket draw now _ true rfl rfl rfl
  | nameFree user first =>
    exact storage.insertFresh_move ticket draw now _ _ rfl
      (fun id drawn unused =>
        .userAdded user first id drawn ((OrdMap.contains_eq_false _ _).mp unused))
  | usersRemoved roleId =>
    simp only [advance, removeRole]
    split
    · exact .unchanged _ rfl rfl
    · exact .roleRemoved roleId
  | tokenFree token userId expiration => exact .sessionCreated token userId expiration
  | changed next => exact storage.forceWrite_move ticket draw now config next
  | listingHosts userId => exact .moved _ rfl rfl rfl rfl
  | assigningHosts userId hosts =>
    cases hosts with
    | nil => exact .ended _ rfl (fun _ => rfl)
    | cons hostId rest =>
      simp only [advance, assignHost]
      split
      · exact .moved _ rfl rfl rfl rfl
      · exact .hostsWritten _ (.hostAssigned userId rest) rfl rfl rfl

end Sections

/-- The steps of the writer task touch the channel, the task itself and the file. -/
theorem step_of_writer (storage : JsonStorage) (config : WebServerConfig) {input : StorageStep}
    (writes : input.ofWriter = true) :
    ∃ queued writer file, storage.step config input =
      ({ storage with queued := queued, writer := writer, file := file }, []) := by
  cases input with
  | call _ | advance _ _ _ | userBySession _ _ | sweepSessions _ =>
    simp [StorageStep.ofWriter] at writes
  | receive =>
    simp only [step]
    split
    · split_ifs
      · exact ⟨_, _, _, rfl⟩
      · exact ⟨_, _, _, rfl⟩
    all_goals exact ⟨_, _, _, rfl⟩
  | snapshot =>
    simp only [step]
    split <;> exact ⟨_, _, _, rfl⟩
  | readEntry key =>
    simp only [step]
    split
    · split_ifs
      · exact ⟨_, _, _, rfl⟩
      · exact ⟨_, _, _, rfl⟩
    all_goals exact ⟨_, _, _, rfl⟩
  | writeFile =>
    simp only [step]
    split <;> exact ⟨_, _, _, rfl⟩

/-- A section only moves its own request. -/
theorem Move.others {storage next : JsonStorage} {ticket now : Nat} {draw : Draw} {stage : Stage}
    {events : List StorageEvent} (move : Move storage ticket draw now stage next events) :
    next.nextTicket = storage.nextTicket ∧
      ∀ other, other ≠ ticket → next.requests.get? other = storage.requests.get? other := by
  have inserted (later : Stage) (other : Nat) (different : other ≠ ticket) :
      (storage.requests.insert ticket later).get? other = storage.requests.get? other := by
    rw [OrdMap.get?_insert, if_neg different]
  have erased (other : Nat) (different : other ≠ ticket) :
      (storage.requests.erase ticket).get? other = storage.requests.get? other := by
    rw [OrdMap.get?_erase, if_neg different]
  cases move with
  | wait => exact ⟨rfl, fun _ _ => rfl⟩
  | ended | sent | sessionCreated | sessionRemoved | sessionsRemoved => exact ⟨rfl, erased⟩
  | moved | userAdded | userModified | userRemoved | roleUsersRemoved | roleRemoved | roleWritten
  | hostsWritten | unchanged | sentOn => exact ⟨rfl, inserted _⟩

-- No request has a ticket that is still to be given out.
def Issued (storage : JsonStorage) : Prop :=
  ∀ ticket, storage.nextTicket ≤ ticket → storage.requests.get? ticket = none

theorem Issued.step {storage : JsonStorage} (issued : storage.Issued) (config : WebServerConfig)
    (input : StorageStep) : (storage.step config input).1.Issued := by
  by_cases writes : input.ofWriter
  · obtain ⟨_, _, _, same⟩ := storage.step_of_writer config writes
    rw [same]
    exact issued
  cases input with
  | call request =>
    intro other new
    simp only [JsonStorage.step, JsonStorage.call, OrdMap.get?_insert] at new ⊢
    rw [if_neg (by omega)]
    exact issued other (by omega)
  | advance ticket draw now =>
    simp only [JsonStorage.step]
    split
    next stage found =>
      obtain ⟨tickets, others⟩ := (storage.advance_move ticket draw now config stage).others
      intro other new
      rw [tickets] at new
      rw [others other (fun same => by simp [← same, issued other new] at found)]
      exact issued other new
    · exact issued
  | userBySession token now => exact issued
  | sweepSessions now => exact issued
  | receive | snapshot | readEntry _ | writeFile => exact absurd rfl writes

end JsonStorage

end BetterParsec
